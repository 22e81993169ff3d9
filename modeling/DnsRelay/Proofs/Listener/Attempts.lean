import DnsRelay.Proofs.Listener.Echo
import DnsRelay.Proofs.Route

/-!
# Which servers are asked for a query

What a listener sends for a query of a client is seen by a sender that keeps a record of its attempts (`Sender.recorded`). How the
route of a question is found, and what is learned on the way, is told once (`Listener.Routed`). From this follows the main
result, `Listener.attempts_exact`: which servers are asked, in which order, and which attempt decides about the reply. A name
whose answers are forged is asked of the trusted server alone.
-/

namespace DnsRelay

/-- A query that was sent to a server, and what came of it. -/
structure Attempt where
  resolver : Resolver
  out : Outbound
  result : Except ForwardError Octets

/-- There was no answer in time, or the server could not be reached. -/
def Attempt.Unanswered (a : Attempt) : Prop :=
  a.result = .error .timedOut ∨ ∃ failure, a.result = .error (.unreachable failure)

/-- Another server might do better iff there was no answer in time or the server could not be reached. -/
theorem ForwardError.isRetryable_iff (e : ForwardError) :
    e.isRetryable = true ↔ e = .timedOut ∨ ∃ failure, e = .unreachable failure := by
  cases e <;> simp [isRetryable]

/-- An attempt is unanswered iff it failed in a way in which another server might do better. -/
theorem Attempt.unanswered_iff (a : Attempt) :
    a.Unanswered ↔ ∃ e, a.result = .error e ∧ e.isRetryable = true := by
  simp only [Unanswered, ForwardError.isRetryable_iff]
  constructor
  · rintro (h | ⟨failure, h⟩)
    · exact ⟨_, h, Or.inl rfl⟩
    · exact ⟨_, h, Or.inr ⟨failure, rfl⟩⟩
  · rintro ⟨e, h, rfl | ⟨failure, rfl⟩⟩
    · exact Or.inl h
    · exact Or.inr ⟨failure, h⟩

/-- The attempts of an exchange: the first server is asked, and once more the second one, iff there is one, this is wanted, and the
first one left the query unanswered. -/
inductive Tries (out : Outbound) (retry : Bool) (first : Resolver) (second : Option Resolver) : List Attempt → Prop where
  | once {a : Attempt} : a.resolver = first → a.out = out → ¬(second.isSome ∧ retry = true ∧ a.Unanswered) →
      Tries out retry first second [a]
  | twice {a b : Attempt} : a.resolver = first → a.out = out → second = some b.resolver → b.out = out → retry = true →
      a.Unanswered → Tries out retry first second [a, b]

/-- Without a second server the first one is asked once. -/
theorem Tries.of_none {out : Outbound} {retry : Bool} {first : Resolver} {attempts : List Attempt}
    (h : Tries out retry first none attempts) : ∃ result, attempts = [⟨first, out, result⟩] := by
  generalize hsecond : none = second at h
  cases h with
  | @once a hfirst hout =>
    subst hfirst hout
    exact ⟨a.result, rfl⟩
  | twice _ _ hother =>
    rw [← hsecond] at hother
    cases hother

/-- The attempts of an exchange are attempts with its query. -/
theorem Tries.out_eq {out : Outbound} {retry : Bool} {first : Resolver} {second : Option Resolver} {attempts : List Attempt}
    (h : Tries out retry first second attempts) : ∀ a ∈ attempts, a.out = out := by
  cases h with
  | once _ hout => simpa using hout
  | twice _ hout _ hout' => simp [hout, hout']

variable {σ : Type}

/-- A way to send queries that keeps a record of its attempts, in order. -/
def Sender.recorded (send : Sender σ) : Sender (List Attempt × σ) := fun s resolver out =>
  let (result, s') := send s.2 resolver out
  (result, s.1 ++ [⟨resolver, out, result⟩], s')

/-! ## Exchanges -/

/-- An exchange asks a second server if it has one and should, and the first one failed in a way in which another one might not. -/
theorem exchange_again (send : Sender σ) {s : σ} {out : Outbound} {first : Resolver} {e : ForwardError}
    (he : (send s first out).1 = .error e) (hretryable : e.isRetryable = true) (other : Resolver) :
    exchange send true s out first (some other) = send (send s first out).2 other out := by
  rcases hs : send s first out with ⟨result, s'⟩
  rw [hs] at he
  dsimp only at he
  subst he
  simp [exchange, hs, hretryable]

/-- Otherwise an exchange is one attempt. -/
theorem exchange_once (send : Sender σ) {retry : Bool} {s : σ} {out : Outbound} {first : Resolver} {second : Option Resolver}
    (h : ¬(second.isSome ∧ retry = true ∧ ∃ e, (send s first out).1 = .error e ∧ e.isRetryable = true)) :
    exchange send retry s out first second = send s first out := by
  rcases hs : send s first out with ⟨result, s'⟩
  rw [hs] at h
  cases result with
  | ok response => simp only [exchange, hs]
  | error e =>
    cases second with
    | none => simp only [exchange, hs]
    | some other =>
      have hnot : (e.isRetryable && retry) = false := by
        simp only [Option.isSome_some, true_and, not_and] at h
        by_cases hretry : retry = true
        · rw [Bool.eq_false_iff.2 fun hr => h hretry ⟨e, rfl, hr⟩, Bool.false_and]
        · rw [Bool.eq_false_iff.2 hretry, Bool.and_false]
      simp [exchange, hs, hnot]

/-- Without a second server an exchange is one attempt. -/
theorem exchange_none (send : Sender σ) (retry : Bool) (s : σ) (out : Outbound) (first : Resolver) :
    exchange send retry s out first none = send s first out :=
  exchange_once send (nofun ∘ And.left)

/-- An exchange makes the attempts that it should, yields what comes of the last one, and is not changed by a record of them. -/
theorem exchange_recorded (send : Sender σ) (retry : Bool) (s : σ) (out : Outbound) (first : Resolver)
    (second : Option Resolver) : ∃ attempts, Tries out retry first second attempts ∧
      (∃ last, attempts.getLast? = some last ∧ last.result = (exchange send retry s out first second).1) ∧
      ∀ before, exchange send.recorded retry (before, s) out first second =
        ((exchange send retry s out first second).1, before ++ attempts, (exchange send retry s out first second).2) := by
  let a : Attempt := ⟨first, out, (send s first out).1⟩
  by_cases hagain : second.isSome ∧ retry = true ∧ a.Unanswered
  · obtain ⟨hsome, rfl, hunanswered⟩ := hagain
    obtain ⟨other, rfl⟩ := Option.isSome_iff_exists.1 hsome
    obtain ⟨e, he, hretryable⟩ := a.unanswered_iff.1 hunanswered
    let b : Attempt := ⟨other, out, (send (send s first out).2 other out).1⟩
    have hlast : [a, b].getLast? = some b := rfl
    refine ⟨[a, b], .twice rfl rfl rfl rfl rfl hunanswered, ⟨b, hlast, by rw [exchange_again send he hretryable]⟩,
      fun before => ?_⟩
    rw [exchange_again send he hretryable, exchange_again send.recorded (s := (before, s)) he hretryable]
    simp only [Sender.recorded, List.append_assoc, List.cons_append, List.nil_append, a, b]
  · have honce : ¬(second.isSome ∧ retry = true ∧ ∃ e, (send s first out).1 = .error e ∧ e.isRetryable = true) :=
      fun h => hagain ⟨h.1, h.2.1, a.unanswered_iff.2 h.2.2⟩
    refine ⟨[a], .once rfl rfl hagain, ⟨a, rfl, by rw [exchange_once send honce]⟩, fun before => ?_⟩
    rw [exchange_once send honce, exchange_once send.recorded honce]
    rfl

namespace Listener

/-! ## Routes -/

/-- The route that a probe has shown; one that failed shows nothing, and its name goes direct. -/
def shown (result : Except ForwardError Octets) : Route :=
  match verdict? result with
  | .ok route => route
  | .error _ => .direct

/-- What a listener knows behind a probe. -/
def learned (l : Listener) (p : Probing) (name : Name) (result : Except ForwardError Octets) : Listener :=
  match verdict? result with
  | .ok route => { l with probing := some { p with routes := (p.routes.insert name route).2 } }
  | .error _ => l

/-- How the route of a question is found: the attempts made for it, the route, and the listener behind. What comes of a probe
is told by `ask`. -/
inductive Routed (l : Listener) (q : Question) (client : Endpoint) (ask : Resolver → Outbound → Except ForwardError Octets) :
    List Attempt → Route → Listener → Prop where
  | unprobed : l.probing = none → Routed l q client ask [] .direct l
  | reverse {p : Probing} : l.probing = some p → q.qtype = RRType.ptr → Routed l q client ask [] .direct l
  | known {p : Probing} {route : Route} : l.probing = some p → q.qtype ≠ RRType.ptr →
      p.routes.get? q.qname = some route → Routed l q client ask [] route l
  | probed {p : Probing} {message : Octets} {out : Outbound} : l.probing = some p → q.qtype ≠ RRType.ptr →
      p.routes.get? q.qname = none → Probe.message (Probe.question q.qname) = .ok message →
      out = ⟨message, Probe.question q.qname, client, .probe⟩ →
      Routed l q client ask [⟨p.resolver, out, ask p.resolver out⟩] (shown (ask p.resolver out))
        (l.learned p q.qname (ask p.resolver out))

/-- A probe for a valid name is one attempt, which shows the route and is learned from. -/
theorem probe_eq (l : Listener) (p : Probing) (send : Sender σ) (s : σ) {name : Name} {message : Octets}
    (hmessage : Probe.message (Probe.question name) = .ok message) (client : Endpoint) {out : Outbound}
    (hout : out = ⟨message, Probe.question name, client, .probe⟩) :
    ∃ log, l.probe p send s name client =
      (shown (send s p.resolver out).1, log, l.learned p name (send s p.resolver out).1, (send s p.resolver out).2) := by
  subst hout
  unfold probe
  dsimp only
  rw [hmessage]
  dsimp only
  rw [exchange_none]
  unfold shown learned
  generalize send s p.resolver ⟨message, Probe.question name, client, .probe⟩ = found
  obtain ⟨result, s'⟩ := found
  dsimp only
  cases verdict? result with
  | ok route => exact ⟨_, rfl⟩
  | error e => exact ⟨_, rfl⟩

/-- A listener that does not probe sends every query on directly. -/
theorem routeOf_unprobed {l : Listener} (h : l.probing = none) (send : Sender σ) (s : σ) (q : Question) (client : Endpoint) :
    l.routeOf send s q client = (.direct, [], l, s) := by
  simp only [routeOf, h]

/-- What the table knows needs no probe. -/
theorem routeOf_known {l : Listener} {p : Probing} (h : l.probing = some p) {q : Question} {route : Route}
    (hdecide : p.routes.decide q = .known route) (send : Sender σ) (s : σ) (client : Endpoint) :
    l.routeOf send s q client = (route, [], l, s) := by
  simp only [routeOf, h, hdecide]

/-- What the table does not know is found out by a probe. -/
theorem routeOf_probe {l : Listener} {p : Probing} (h : l.probing = some p) {q : Question}
    (hdecide : p.routes.decide q = .probe) (send : Sender σ) (s : σ) (client : Endpoint) :
    l.routeOf send s q client = l.probe p send s q.qname client := by
  simp only [routeOf, h, hdecide]

/-- The route of a question with a valid name is found as it should be, and a record of the attempts changes nothing. -/
theorem routeOf_routed (l : Listener) (send : Sender σ) (s : σ) {q : Question} (hq : q.qname.Valid) (client : Endpoint) :
    ∃ probes route log l' s', l.Routed q client (fun resolver out => (send s resolver out).1) probes route l' ∧
      l.routeOf send s q client = (route, log, l', s') ∧
      ∀ before, ∃ log', l.routeOf send.recorded (before, s) q client = (route, log', l', before ++ probes, s') := by
  cases hprobing : l.probing with
  | none =>
    refine ⟨[], _, _, _, _, .unprobed hprobing, routeOf_unprobed hprobing .., fun before => ⟨[], ?_⟩⟩
    rw [routeOf_unprobed hprobing, List.append_nil]
  | some p =>
    by_cases hptr : q.qtype = RRType.ptr
    · have hknown : p.routes.decide q = .known .direct := if_pos hptr
      refine ⟨[], _, _, _, _, .reverse hprobing hptr, routeOf_known hprobing hknown .., fun before => ⟨[], ?_⟩⟩
      rw [routeOf_known hprobing hknown, List.append_nil]
    · cases hget : p.routes.get? q.qname with
      | some route =>
        have hknown : p.routes.decide q = .known route := by rw [RouteTable.decide, if_neg hptr, hget]
        refine ⟨[], _, _, _, _, .known hprobing hptr hget, routeOf_known hprobing hknown .., fun before => ⟨[], ?_⟩⟩
        rw [routeOf_known hprobing hknown, List.append_nil]
      | none =>
        have hunknown : p.routes.decide q = .probe := by rw [RouteTable.decide, if_neg hptr, hget]
        obtain ⟨message, hmessage, -⟩ := Probe.exists_message hq
        obtain ⟨log, hprobe⟩ := l.probe_eq p send s hmessage client rfl
        refine ⟨_, _, _, _, _, .probed hprobing hptr hget hmessage rfl, (routeOf_probe hprobing hunknown ..).trans hprobe,
          fun before => ?_⟩
        obtain ⟨log', hrecorded⟩ := l.probe_eq p send.recorded (before, s) hmessage client rfl
        exact ⟨log', (routeOf_probe hprobing hunknown ..).trans hrecorded⟩

/-- Finding a route changes nothing but what is known about routes. -/
theorem Routed.eq_with_probing {l : Listener} {q : Question} {client : Endpoint}
    {ask : Resolver → Outbound → Except ForwardError Octets} {probes : List Attempt} {route : Route} {l' : Listener}
    (h : l.Routed q client ask probes route l') : ∃ probing, l' = { l with probing } := by
  cases h with
  | probed =>
    unfold learned
    split
    · exact ⟨_, rfl⟩
    · exact ⟨l.probing, rfl⟩
  | _ => exact ⟨l.probing, rfl⟩

/-! ## Queries -/

/-- The attempts that a listener makes for a message of a client. -/
def attempts (l : Listener) (send : Sender σ) (s : σ) (r : Received) : List Attempt :=
  (l.handle send.recorded ([], s) r).2.2.2.1

/-- For a query that is forwarded, the attempts that find its route come first, and behind them those of the exchange with the
servers of this route. -/
theorem handle_routed (l : Listener) (send : Sender σ) (s : σ) {r : Received} {m : Message} {q : Question}
    (ht : triage r.octets r.client.canonical = .forward m q) :
    ∃ probes relays route, l.Routed q r.client.canonical (fun resolver out => (send s resolver out).1) probes route
        (l.handle send s r).2.2.1 ∧
      Tries ⟨r.octets, q, r.client.canonical, .relay⟩ l.retrySecondary (l.servers route).1 (l.servers route).2 relays ∧
      (∃ last, relays.getLast? = some last ∧ last.result = l.relayed send s r q) ∧
      l.attempts send s r = probes ++ relays ∧
      (l.handle send s r).1 = (l.conclude r.transport r.client.canonical m q (l.relayed send s r q)).1 := by
  have hvalid : q.qname.Valid := by
    obtain ⟨-, -, -, -, rest, hread⟩ := (triage_eq_forward_iff _ _ _ _).1 ht
    exact Reader.valid_of_readQuestion hread
  obtain ⟨probes, route, log, l', s', hrouted, hroute, hrecorded⟩ := l.routeOf_routed send s hvalid r.client.canonical
  obtain ⟨probing, rfl⟩ := hrouted.eq_with_probing
  obtain ⟨relays, htries, hlast, hrelays⟩ := exchange_recorded send l.retrySecondary s'
    ⟨r.octets, q, r.client.canonical, .relay⟩ (l.servers route).1 (l.servers route).2
  obtain ⟨log', hrecorded⟩ := hrecorded []
  refine ⟨probes, relays, route, ?_, htries, ?_, ?_, ?_⟩
  · have hafter : (l.handle send s r).2.2.1 = { l with probing } := by simp only [handle, ht, hroute]
    rw [hafter]
    exact hrouted
  · have hrelayed : l.relayed send s r q = (exchange send l.retrySecondary s' ⟨r.octets, q, r.client.canonical, .relay⟩
        (l.servers route).1 (l.servers route).2).1 := by
      simp only [relayed, hroute]
      rfl
    rw [hrelayed]
    exact hlast
  · have hexchange := hrelays ([] ++ probes)
    rw [List.nil_append] at hexchange hrecorded
    have hservers : Listener.servers { l with probing } route = l.servers route := rfl
    simp only [attempts, handle, ht, hrecorded, hservers, hexchange]
  · rw [handle_forward l send s ht, hroute]
    rfl

/-- A polluted name is asked of the trusted server alone. -/
theorem servers_trusted {l : Listener} {trusted : Resolver} (h : l.secondary = some trusted) :
    l.servers .trusted = (trusted, none) := by
  simp [servers, h]

/-- Every other name is asked of the primary server first. -/
theorem servers_of_not {l : Listener} {route : Route} (h : ¬(l.secondary.isSome ∧ route = .trusted)) :
    l.servers route = (l.primary, l.secondary) := by
  cases hsecondary : l.secondary with
  | none => simp [servers, hsecondary]
  | some trusted =>
    cases route with
    | direct => simp [servers, hsecondary]
    | trusted => exact absurd ⟨by rw [hsecondary]; rfl, rfl⟩ h

/-- A probe shows the trusted route iff its reply is judged so. -/
theorem shown_eq_trusted_iff (result : Except ForwardError Octets) :
    shown result = .trusted ↔ ∃ reply, result = .ok reply ∧ Probe.judge reply = .trusted := by
  cases result with
  | ok reply => simp [shown, verdict?]
  | error e => cases e <;> simp [shown, verdict?]

/-- What comes of a query is what comes of every attempt with it, if this is always the same. -/
theorem relayed_of_forall {l : Listener} {send : Sender σ} {s : σ} {r : Received} {q : Question}
    {result : Except ForwardError Octets}
    (h : ∀ s resolver, (send s resolver ⟨r.octets, q, r.client.canonical, .relay⟩).1 = result) :
    l.relayed send s r q = result := by
  have hexchange : ∀ retry s first second,
      (exchange send retry s ⟨r.octets, q, r.client.canonical, .relay⟩ first second).1 = result := by
    intro retry s first second
    by_cases hagain : second.isSome ∧ retry = true ∧
        ∃ e, (send s first ⟨r.octets, q, r.client.canonical, .relay⟩).1 = .error e ∧ e.isRetryable = true
    · obtain ⟨hsome, rfl, e, he, hretryable⟩ := hagain
      obtain ⟨other, rfl⟩ := Option.isSome_iff_exists.1 hsome
      rw [exchange_again send he hretryable, h]
    · rw [exchange_once send hagain, h]
  exact hexchange _ _ _ _

/-- The table of a listener that probes knows no route for a question that needs one. -/
def Unknown (l : Listener) (p : Probing) (q : Question) : Prop :=
  l.probing = some p ∧ q.qtype ≠ RRType.ptr ∧ p.routes.get? q.qname = none

/-- A listener that probes has to have a question resolved by the trusted server: its table says so or, if it knows nothing,
the reply to a probe does. -/
def Polluted (l : Listener) (q : Question) (probes : List Attempt) : Prop :=
  ∃ p, l.probing = some p ∧ q.qtype ≠ RRType.ptr ∧ (p.routes.get? q.qname = some .trusted ∨
    l.Unknown p q ∧ ∃ probe ∈ probes, ∃ reply, probe.result = .ok reply ∧ Probe.judge reply = .trusted)

section Routed

variable {l l' : Listener} {q : Question} {client : Endpoint} {ask : Resolver → Outbound → Except ForwardError Octets}
  {probes : List Attempt} {route : Route}

/-- The route is the trusted one iff the question has to be resolved by the trusted server. -/
theorem Routed.eq_trusted_iff (h : l.Routed q client ask probes route l') : route = .trusted ↔ l.Polluted q probes := by
  cases h with
  | unprobed hp => simp [Polluted, hp]
  | reverse hp hptr => simp [Polluted, hptr]
  | known hp hptr hget => simp [Polluted, Unknown, hp, hptr, hget]
  | probed hp hptr hget => simp [Polluted, Unknown, hp, hptr, hget, shown_eq_trusted_iff]

/-- One probe is made if the table knows nothing. -/
theorem Routed.probes_of_unknown (h : l.Routed q client ask probes route l') {p : Probing} (hunknown : l.Unknown p q) :
    ∃ message, Probe.message (Probe.question q.qname) = .ok message ∧
      ∃ probe, probe = Outbound.mk message (Probe.question q.qname) client .probe ∧
        probes = [⟨p.resolver, probe, ask p.resolver probe⟩] := by
  obtain ⟨hp, hptr, hget⟩ := hunknown
  cases h with
  | unprobed hp' => simp [hp] at hp'
  | reverse _ hptr' => exact absurd hptr' hptr
  | known hp' _ hget' =>
    rw [hp] at hp'
    cases hp'
    rw [hget] at hget'
    cases hget'
  | probed hp' _ _ hmessage hout =>
    rw [hp] at hp'
    cases hp'
    exact ⟨_, hmessage, _, hout, rfl⟩

/-- No probe is made if the table knows something, or no route is needed. -/
theorem Routed.probes_of_known (h : l.Routed q client ask probes route l') (hknown : ∀ p, ¬l.Unknown p q) :
    probes = [] := by
  cases h with
  | probed hp hptr hget => exact absurd ⟨hp, hptr, hget⟩ (hknown _)
  | _ => rfl

end Routed

/-- How a query that is forwarded is sent: behind one probe iff the listener probes and knows no route for the name, in
whatever case; then to the trusted server alone, if there is one and the name is polluted; and otherwise to the primary
server, and once more to the secondary one iff this is wanted and the first attempt timed out or did not reach its server.
What comes of the last attempt makes the reply. -/
theorem attempts_exact (l : Listener) (send : Sender σ) (s : σ) (r : Received) (m : Message) (q : Question)
    (ht : triage r.octets r.client.canonical = .forward m q) :
    let client := r.client.canonical
    let relay : Outbound := ⟨r.octets, q, client, .relay⟩
    ∃ probes relays, l.attempts send s r = probes ++ relays ∧
      (∀ p, l.Unknown p q → ∃ message, Probe.message (Probe.question q.qname) = .ok message ∧
        ∃ probe, probe = Outbound.mk message (Probe.question q.qname) client .probe ∧
          probes = [⟨p.resolver, probe, (send s p.resolver probe).1⟩]) ∧
      ((∀ p, ¬l.Unknown p q) → probes = []) ∧
      (∀ trusted, l.secondary = some trusted → l.Polluted q probes → ∃ result, relays = [⟨trusted, relay, result⟩]) ∧
      (¬(l.secondary.isSome ∧ l.Polluted q probes) → Tries relay l.retrySecondary l.primary l.secondary relays) ∧
      (∃ last, relays.getLast? = some last ∧ last.result = l.relayed send s r q ∧
        (l.handle send s r).1 = (l.conclude r.transport client m q last.result).1) ∧
      ∀ p name, l.probing = some p → name.same q.qname = true → p.routes.get? name = p.routes.get? q.qname := by
  intro client relay
  obtain ⟨probes, relays, route, hrouted, htries, ⟨last, hlast, hresult⟩, hattempts, hreply⟩ := handle_routed l send s ht
  refine ⟨probes, relays, hattempts, fun p hp => hrouted.probes_of_unknown hp, hrouted.probes_of_known, ?_, ?_,
    ⟨last, hlast, hresult, by rw [hresult]; exact hreply⟩, fun p name _ hsame => p.routes.get?_of_same hsame⟩
  · intro trusted hsecondary hpolluted
    rw [hrouted.eq_trusted_iff.2 hpolluted, servers_trusted hsecondary] at htries
    exact htries.of_none
  · intro hnot
    rw [← hrouted.eq_trusted_iff] at hnot
    rw [servers_of_not hnot] at htries
    exact htries

/-- The table has room for no name. The probe for `a.` is answered with an address, so the query goes to the trusted server;
this one does not answer, and the primary server is not asked although it might be. -/
theorem attempts_exact_polluted :
    let octets : Octets := #[66, 66, 1, 0, 0, 1, 0, 0, 0, 0, 0, 0, 1, 97, 0, 0, 1, 0, 1]
    let q : Question := ⟨⟨[1, 97, 0]⟩, RRType.a, RRClass.internet⟩
    let forged : Octets := #[0, 7, 129, 128, 0, 1, 0, 1, 0, 0, 0, 0, 1, 97, 0, 0, 6, 0, 1, 192, 12, 0, 1, 0, 1, 0, 0, 0, 60, 0, 4,
      192, 0, 2, 1]
    let trusted : Resolver := ⟨.v4 2 53, .tcp⟩
    let prober : Resolver := ⟨.v4 3 53, .udp⟩
    let send : Sender Unit := fun s _ out => (if out.kind = .probe then .ok forged else .error .timedOut, s)
    let l : Listener := ⟨⟨.v4 1 53, .udp⟩, some trusted, some ⟨prober, .empty 0⟩, .servFail, true⟩
    let r : Received := ⟨octets, .v4 4 53, .udp⟩
    (∃ m, triage r.octets r.client.canonical = .forward m q) ∧
      ∃ probe, l.attempts send () r = [⟨prober, probe, .ok forged⟩,
        ⟨trusted, ⟨octets, q, .v4 4 53, .relay⟩, .error .timedOut⟩] := by
  intro octets q forged trusted prober send l r
  have ht : triage r.octets r.client.canonical = .forward ⟨octets, by decide⟩ q := by cbv
  have hunknown : l.Unknown ⟨prober, .empty 0⟩ q := ⟨rfl, by decide, rfl⟩
  have hp : Response.parse? forged (.v4 3 53) = .ok ⟨7, .noError, false, some ⟨⟨[1, 97, 0]⟩, RRType.soa, RRClass.internet⟩,
      [⟨⟨[1, 97, 0]⟩, RRType.a, RRClass.internet, Ttl.ofWire 60, [192, 0, 2, 1]⟩], .v4 3 53⟩ := by cbv
  have hjudge : Probe.judge forged = .trusted := (Probe.judge_eq_trusted_iff hp).2 rfl
  have hrelayed : l.relayed send () r q = .error .timedOut := relayed_of_forall fun _ _ => rfl
  obtain ⟨probes, relays, hattempts, hprobes, -, htrusted, -, ⟨last, hlast, hresult, -⟩, -⟩ :=
    attempts_exact l send () r _ q ht
  obtain ⟨message, -, probe, hprobe, rfl⟩ := hprobes _ hunknown
  have hforged : (send () prober probe).1 = .ok forged := by
    rw [hprobe]
    rfl
  have hpolluted : l.Polluted q [⟨prober, probe, (send () prober probe).1⟩] :=
    ⟨_, hunknown.1, hunknown.2.1, Or.inr ⟨hunknown, _, List.mem_singleton_self _, forged, hforged, hjudge⟩⟩
  obtain ⟨result, rfl⟩ := htrusted trusted rfl hpolluted
  cases hlast
  obtain rfl : result = .error .timedOut := hresult.trans hrelayed
  refine ⟨⟨_, ht⟩, probe, ?_⟩
  rw [hattempts, hforged]
  rfl

end Listener

end DnsRelay
