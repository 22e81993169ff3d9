import DnsRelay.Proofs.Listener.Attempts
import DnsRelay.Proofs.Transcript

/-!
# What a listener learns

A listener handles messages one after another, beginning with a table that knows no route. What it knows about a name is what the
first probe for this name has shown that was recorded (`Listener.FirstRecorded`), and this stays: the main result is
`Listener.learned_exact`.
-/

namespace DnsRelay

variable {σ : Type}

/-- The query was answered by an accepted response, whose first answer has this type, or which has no answer. -/
def Attempt.Shows (a : Attempt) (first : Option RRType) : Prop :=
  ∃ reply source response, a.result = .ok reply ∧ Forwarder.Answered a.out reply ∧
    Response.parse? reply source = .ok response ∧ response.answers.head?.map (·.type) = first

namespace Listener

/-- A listener handles a message of a client: the attempts that it makes, and the state that it goes on in. -/
def serve (send : Sender σ) (state : Listener × σ) (r : Received) : List Attempt × Listener × σ :=
  (state.1.attempts send state.2 r, (state.1.handle send state.2 r).2.2)

/-- The route that a listener knows for a name. -/
def route? (l : Listener) (name : Name) : Option Route :=
  l.probing.bind (·.routes.get? name)

/-- A verdict on a name is recorded: there was room in the table, and among the attempts is a probe for the name, in some
case, that was answered or timed out. -/
structure Records (l : Listener) (attempts : List Attempt) (name : Name) (probe : Attempt) : Prop where
  room : ∃ p, l.probing = some p ∧ p.routes.size < p.routes.capacity
  mem : probe ∈ attempts
  kind : probe.out.kind = .probe
  same : probe.out.question.qname.same name = true
  verdict : (∃ reply, probe.result = .ok reply) ∨ probe.result = .error .timedOut

/-- A verdict on a name is recorded while the message behind `k` others is handled. -/
def RecordedAt (send : Sender σ) (start : Listener × σ) (rs : List Received) (k : Nat) (name : Name) (probe : Attempt) : Prop :=
  ∃ attempts, (transcript (serve send) start rs).1[k]? = some attempts ∧
    Records (stateAt (serve send) start rs k).1 attempts name probe

/-- The first verdict on a name is recorded while the message behind `k` others is handled. -/
def FirstRecorded (send : Sender σ) (start : Listener × σ) (rs : List Received) (k : Nat) (name : Name) (probe : Attempt) : Prop :=
  RecordedAt send start rs k name probe ∧ ∀ j < k, ∀ earlier, ¬RecordedAt send start rs j name earlier

/-! ## One message -/

/-- A message that is not forwarded is handled without an attempt, and nothing is learned from it. -/
theorem handle_of_not_forward (l : Listener) (send : Sender σ) (s : σ) {r : Received}
    (h : ∀ m q, triage r.octets r.client.canonical ≠ .forward m q) :
    l.attempts send s r = [] ∧ (l.handle send s r).2.2.1 = l := by
  cases ht : triage r.octets r.client.canonical with
  | ignore log => simp [attempts, handle, ht]
  | refuse m rcode => simp [attempts, handle, ht]
  | forward m q => exact absurd ht (h m q)

/-- A listener learns the route of a name from a probe: everything that handling a message does then to what it knows. -/
structure Learns (l : Listener) (p : Probing) (send : Sender σ) (s : σ) (r : Received) (probe : Attempt) : Prop where
  asked : ∀ m q, triage r.octets r.client.canonical = .forward m q → q.qtype ≠ RRType.ptr
  mem : probe ∈ l.attempts send s r
  kind : probe.out.kind = .probe
  only : ∀ a ∈ l.attempts send s r, a.out.kind = .probe → a = probe
  sent : probe.result = (send s probe.resolver probe.out).1
  verdict : (∃ reply, probe.result = .ok reply) ∨ probe.result = .error .timedOut
  unknown : p.routes.get? probe.out.question.qname = none
  room : p.routes.size < p.routes.capacity
  next : (l.handle send s r).2.2.1 =
    { l with probing := some { p with routes := (p.routes.insert probe.out.question.qname (shown probe.result)).2 } }

/-- A probe leaves a listener that it shows nothing to as it is. -/
theorem learned_of_error {l : Listener} {p : Probing} {name : Name} {result : Except ForwardError Octets}
    (h : ¬((∃ reply, result = .ok reply) ∨ result = .error .timedOut)) : l.learned p name result = l := by
  rcases result with (_ | _ | _ | _) | reply
  all_goals simp_all [learned, verdict?]

/-- A probe that was answered or timed out is remembered with the route that it shows. -/
theorem learned_of_verdict {l : Listener} {p : Probing} {name : Name} {result : Except ForwardError Octets}
    (h : (∃ reply, result = .ok reply) ∨ result = .error .timedOut) :
    l.learned p name result = { l with probing := some { p with routes := (p.routes.insert name (shown result)).2 } } := by
  rcases h with ⟨reply, rfl⟩ | rfl <;> rfl

/-- Handling a message leaves what a listener knows as it is, and records no verdict, or the listener learns a route. -/
theorem handle_cases {l : Listener} {p : Probing} (hprobing : l.probing = some p) (send : Sender σ) (s : σ) (r : Received) :
    ((l.handle send s r).2.2.1 = l ∧ ∀ name probe, ¬Records l (l.attempts send s r) name probe) ∨
      ∃ probe, Learns l p send s r probe := by
  by_cases hforward : ∃ m q, triage r.octets r.client.canonical = .forward m q
  · obtain ⟨m, q, ht⟩ := hforward
    obtain ⟨probes, relays, route, hrouted, htries, -, hattempts, -⟩ := handle_routed l send s ht
    -- the attempts of the exchange are no probes
    have hrelays : ∀ a ∈ relays, a.out.kind ≠ .probe := by
      intro a ha
      rw [htries.out_eq a ha]
      exact nofun
    have hnone : probes = [] → ∀ name probe, ¬Records l (l.attempts send s r) name probe := by
      rintro rfl name probe hrecords
      have hmem := hrecords.mem
      rw [hattempts] at hmem
      exact hrelays probe hmem hrecords.kind
    generalize hnext : (l.handle send s r).2.2.1 = l' at hrouted
    cases hrouted with
    | unprobed => exact Or.inl ⟨rfl, hnone rfl⟩
    | reverse => exact Or.inl ⟨rfl, hnone rfl⟩
    | known => exact Or.inl ⟨rfl, hnone rfl⟩
    | @probed p' message out hp' hptr hget hmessage hout =>
      obtain rfl : p = p' := Option.some.inj (hprobing.symm.trans hp')
      have hname : out.question.qname = q.qname := by rw [hout]; rfl
      generalize hresult : (send s p.resolver out).1 = result at hattempts hnext
      have honly : ∀ a ∈ l.attempts send s r, a.out.kind = .probe → a = ⟨p.resolver, out, result⟩ := by
        intro a ha hkind
        rw [hattempts, List.mem_append] at ha
        exact ha.elim List.mem_singleton.1 fun hmem => absurd hkind (hrelays a hmem)
      by_cases hverdict : (∃ reply, result = .ok reply) ∨ result = .error .timedOut
      · by_cases hroom : p.routes.size < p.routes.capacity
        · refine Or.inr ⟨⟨p.resolver, out, result⟩, ?_, ?_, ?_, honly, hresult.symm, hverdict, ?_, hroom, ?_⟩
          · intro m' q' ht'
            rw [ht] at ht'
            cases ht'
            exact hptr
          · rw [hattempts]
            exact List.mem_append_left _ (List.mem_singleton_self _)
          · rw [hout]
          · rw [hname]
            exact hget
          · rw [hnext, learned_of_verdict hverdict, hname]
        · have hrefused : (p.routes.insert q.qname (shown result)).1 = false := by
            rw [Bool.eq_false_iff, ne_eq, RouteTable.insert_eq_true_iff]
            exact fun h => h.elim (fun hne => hne hget) hroom
          refine Or.inl ⟨?_, fun name probe hrecords => ?_⟩
          · rw [learned_of_verdict hverdict, RouteTable.insert_of_refused hrefused, ← hprobing]
          · obtain ⟨p', hp', hlt⟩ := hrecords.room
            rw [hprobing] at hp'
            cases hp'
            exact hroom hlt
      · refine Or.inl ⟨learned_of_error hverdict, fun name probe hrecords => hverdict ?_⟩
        have hprobe := honly probe hrecords.mem hrecords.kind
        rw [hprobe] at hrecords
        exact hrecords.verdict
  · obtain ⟨hattempts, hnext⟩ := handle_of_not_forward l send s fun m q ht => hforward ⟨m, q, ht⟩
    refine Or.inl ⟨hnext, fun name probe hrecords => ?_⟩
    have hmem := hrecords.mem
    rw [hattempts] at hmem
    cases hmem

namespace Learns

variable {l : Listener} {p : Probing} {send : Sender σ} {s : σ} {r : Received} {probe : Attempt}

/-- The verdict that is recorded is that of the probe, for every case of its name. -/
theorem records_iff (h : Learns l p send s r probe) (hprobing : l.probing = some p) (name : Name) (a : Attempt) :
    Records l (l.attempts send s r) name a ↔ a = probe ∧ probe.out.question.qname.same name = true := by
  constructor
  · intro hrecords
    obtain rfl : a = probe := h.only a hrecords.mem hrecords.kind
    exact ⟨rfl, hrecords.same⟩
  · rintro ⟨rfl, hsame⟩
    exact ⟨⟨p, hprobing, h.room⟩, h.mem, h.kind, hsame, h.verdict⟩

/-- The route of the name of the probe is learned, and no other one changes. -/
theorem route?_next (h : Learns l p send s r probe) (hprobing : l.probing = some p) (name : Name) :
    (l.handle send s r).2.2.1.route? name =
      if probe.out.question.qname.same name then some (shown probe.result) else l.route? name := by
  have hinsert : (p.routes.insert probe.out.question.qname (shown probe.result)).1 = true :=
    (RouteTable.insert_eq_true_iff _ _ _).2 (Or.inr h.room)
  have hroute : l.route? name = p.routes.get? name := by rw [route?, hprobing, Option.bind_some]
  rw [h.next, hroute]
  exact RouteTable.get?_insert hinsert name

/-- Nothing was known about the name of the probe, whatever its case. -/
theorem route?_eq_none (h : Learns l p send s r probe) (hprobing : l.probing = some p) {name : Name}
    (hsame : probe.out.question.qname.same name = true) : l.route? name = none := by
  rw [route?, hprobing, Option.bind_some, ← RouteTable.get?_of_same _ hsame, h.unknown]

end Learns

/-! ## Messages one after another -/

section Run

variable {send : Sender σ} {start : Listener × σ} {rs : List Received} {k : Nat}

/-- A verdict is recorded while a message is handled iff it is among the attempts made for this message. -/
theorem recordedAt_iff {r : Received} (hr : rs[k]? = some r) (name : Name) (probe : Attempt) :
    RecordedAt send start rs k name probe ↔ Records (stateAt (serve send) start rs k).1
      ((stateAt (serve send) start rs k).1.attempts send (stateAt (serve send) start rs k).2 r) name probe := by
  rw [RecordedAt, getElem?_transcript, hr]
  simp only [Option.map_some, Option.some.injEq, exists_eq_left', serve]

/-- Without a message no verdict is recorded. -/
theorem not_recordedAt (hr : rs[k]? = none) (name : Name) (probe : Attempt) : ¬RecordedAt send start rs k name probe := by
  rw [RecordedAt, getElem?_transcript, hr]
  simp

/-- The first verdict on a name is recorded once. -/
theorem FirstRecorded.eq {name : Name} {j j' : Nat} {probe probe' : Attempt} (h : FirstRecorded send start rs j name probe)
    (h' : FirstRecorded send start rs j' name probe') : j = j' := by
  rcases Nat.lt_trichotomy j j' with hlt | heq | hgt
  · exact absurd h.1 (h'.2 j hlt probe)
  · exact heq
  · exact absurd h'.1 (h.2 j' hgt probe')

/-- What a listener knows behind `k` messages rests on the first verdicts that were recorded. -/
structure Backed (send : Sender σ) (start : Listener × σ) (rs : List Received) (k : Nat) : Prop where
  probing : ∃ p, (stateAt (serve send) start rs k).1.probing = some p
  known : ∀ name, ((stateAt (serve send) start rs k).1.route? name = none ∧
      ∀ j < k, ∀ probe, ¬RecordedAt send start rs j name probe) ∨
    ∃ j < k, ∃ probe, FirstRecorded send start rs j name probe ∧
      (stateAt (serve send) start rs k).1.route? name = some (shown probe.result)

/-- What is known rests on verdicts behind another message at which none is recorded and nothing changes. -/
theorem Backed.succ_of_eq (h : Backed send start rs k)
    (hsame : (stateAt (serve send) start rs (k + 1)).1 = (stateAt (serve send) start rs k).1)
    (hnone : ∀ name probe, ¬RecordedAt send start rs k name probe) : Backed send start rs (k + 1) where
  probing := hsame ▸ h.probing
  known := by
    intro name
    rw [hsame]
    rcases h.known name with ⟨hunknown, hbefore⟩ | ⟨j, hj, probe, hfirst, hknown⟩
    · refine Or.inl ⟨hunknown, fun j hj probe => ?_⟩
      rcases Nat.lt_succ_iff_lt_or_eq.1 hj with hlt | rfl
      · exact hbefore j hlt probe
      · exact hnone name probe
    · exact Or.inr ⟨j, Nat.lt_succ_of_lt hj, probe, hfirst, hknown⟩

/-- What is known rests on verdicts behind every number of messages, if nothing was known at first. -/
theorem backed {resolver : Resolver} {capacity : Nat} (hstart : start.1.probing = some ⟨resolver, .empty capacity⟩) (k : Nat) :
    Backed send start rs k := by
  induction k with
  | zero =>
    refine ⟨⟨_, by rw [stateAt_zero, hstart]⟩, fun name => Or.inl ⟨?_, fun j hj => absurd hj (Nat.not_lt_zero j)⟩⟩
    rw [stateAt_zero, route?, hstart]
    rfl
  | succ k ih =>
    cases hr : rs[k]? with
    | none => exact ih.succ_of_eq (by rw [stateAt_succ_of_none hr]) (not_recordedAt hr)
    | some r =>
      obtain ⟨p, hprobing⟩ := ih.probing
      have hnext : stateAt (serve send) start rs (k + 1) = (serve send (stateAt (serve send) start rs k) r).2 := stateAt_succ hr
      rcases handle_cases hprobing send (stateAt (serve send) start rs k).2 r with ⟨hsame, hnone⟩ | ⟨probe, hlearns⟩
      · refine ih.succ_of_eq ?_ fun name probe hrecorded => hnone name probe ((recordedAt_iff hr name probe).1 hrecorded)
        rw [hnext]
        exact hsame
      · have hroute := hlearns.route?_next hprobing
        have hrecorded (name : Name) (a : Attempt) : RecordedAt send start rs k name a ↔
            a = probe ∧ probe.out.question.qname.same name = true :=
          (recordedAt_iff hr name a).trans (hlearns.records_iff hprobing name a)
        refine ⟨⟨_, by rw [hnext]; exact congrArg Listener.probing hlearns.next⟩, fun name => ?_⟩
        have hafter : (stateAt (serve send) start rs (k + 1)).1.route? name =
            if probe.out.question.qname.same name then some (shown probe.result)
              else (stateAt (serve send) start rs k).1.route? name := by
          rw [hnext]
          exact hroute name
        by_cases hname : probe.out.question.qname.same name = true
        · -- nothing was known about the name, so this verdict on it is the first one
          have hfirst : FirstRecorded send start rs k name probe := by
            refine ⟨(hrecorded name probe).2 ⟨rfl, hname⟩, ?_⟩
            rcases ih.known name with ⟨-, hbefore⟩ | ⟨j, -, probe', -, hknown⟩
            · exact hbefore
            · rw [hlearns.route?_eq_none hprobing hname] at hknown
              cases hknown
          exact Or.inr ⟨k, Nat.lt_succ_self k, probe, hfirst, by rw [hafter, if_pos hname]⟩
        · rw [if_neg hname] at hafter
          rw [hafter]
          rcases ih.known name with ⟨hunknown, hbefore⟩ | ⟨j, hj, probe', hfirst, hknown⟩
          · refine Or.inl ⟨hunknown, fun j hj a hrecord => ?_⟩
            rcases Nat.lt_succ_iff_lt_or_eq.1 hj with hlt | rfl
            · exact hbefore j hlt a hrecord
            · exact hname ((hrecorded name a).1 hrecord).2
          · exact Or.inr ⟨j, Nat.lt_succ_of_lt hj, probe', hfirst, hknown⟩

/-- A verdict that is recorded was learned from its probe. -/
theorem RecordedAt.learns {name : Name} {probe : Attempt} (h : RecordedAt send start rs k name probe) (hk : Backed send start rs k) :
    ∃ p r, rs[k]? = some r ∧ (stateAt (serve send) start rs k).1.probing = some p ∧
      Learns (stateAt (serve send) start rs k).1 p send (stateAt (serve send) start rs k).2 r probe := by
  cases hr : rs[k]? with
  | none => exact absurd h (not_recordedAt hr name probe)
  | some r =>
    obtain ⟨p, hprobing⟩ := hk.probing
    have hrecords := (recordedAt_iff hr name probe).1 h
    rcases handle_cases hprobing send (stateAt (serve send) start rs k).2 r with ⟨-, hnone⟩ | ⟨probe', hlearns⟩
    · exact absurd hrecords (hnone name probe)
    · obtain ⟨rfl, -⟩ := (hlearns.records_iff hprobing name probe).1 hrecords
      exact ⟨p, r, rfl, hprobing, hlearns⟩

/-- At most one verdict is recorded while a message is handled. -/
theorem RecordedAt.eq {name : Name} {probe probe' : Attempt} (h : RecordedAt send start rs k name probe)
    (h' : RecordedAt send start rs k name probe') (hk : Backed send start rs k) : probe = probe' := by
  obtain ⟨p, r, hr, -, hlearns⟩ := h.learns hk
  have hrecords := (recordedAt_iff hr name probe').1 h'
  exact (hlearns.only probe' hrecords.mem hrecords.kind).symm

end Run

end Listener

/-! ## What a probe shows -/

/-- A probe that was answered shows the trusted route iff the first answer of the response is an address. -/
theorem Attempt.Shows.shown_eq_trusted_iff {a : Attempt} {first : Option RRType} (h : a.Shows first) :
    Listener.shown a.result = .trusted ↔ first = some RRType.a := by
  obtain ⟨reply, source, response, hok, -, hp, rfl⟩ := h
  rw [hok, ← Probe.judge_eq_trusted_iff hp]
  rfl

namespace Listener

section Shows

variable {l : Listener} {p : Probing} {send : Sender σ} {s : σ} {r : Received} {probe : Attempt}

/-- A probe that was answered shows what type the first answer has, since the response was accepted. -/
theorem Learns.exists_shows (h : Learns l p send s r probe) (hgenuine : send.Genuine) {reply : Octets}
    (hok : probe.result = .ok reply) : ∃ first, probe.Shows first := by
  have hanswered := hgenuine s probe.resolver probe.out reply (h.sent.symm.trans hok)
  obtain ⟨source, response, -, -, hp, -⟩ := (Forwarder.answered_iff _ _).1 hanswered
  exact ⟨_, reply, source, response, hok, hanswered, hp, rfl⟩

/-- The trusted route is learned iff the probe was answered and the first answer is an address. -/
theorem Learns.shown_eq_trusted_iff (h : Learns l p send s r probe) (hgenuine : send.Genuine) :
    shown probe.result = .trusted ↔ probe.Shows (some RRType.a) := by
  constructor
  · intro htrusted
    rcases h.verdict with ⟨reply, hok⟩ | htimedOut
    · obtain ⟨first, hshows⟩ := h.exists_shows hgenuine hok
      rw [← hshows.shown_eq_trusted_iff.1 htrusted]
      exact hshows
    · rw [htimedOut] at htrusted
      cases htrusted
  · intro hshows
    exact hshows.shown_eq_trusted_iff.2 rfl

/-- The direct route is learned iff the probe was answered and the first answer is no address, or it timed out. -/
theorem Learns.shown_eq_direct_iff (h : Learns l p send s r probe) (hgenuine : send.Genuine) :
    shown probe.result = .direct ↔
      (∃ first, first ≠ some RRType.a ∧ probe.Shows first) ∨ probe.result = .error .timedOut := by
  constructor
  · intro hdirect
    rcases h.verdict with ⟨reply, hok⟩ | htimedOut
    · obtain ⟨first, hshows⟩ := h.exists_shows hgenuine hok
      refine Or.inl ⟨first, fun hfirst => ?_, hshows⟩
      rw [hshows.shown_eq_trusted_iff.2 hfirst] at hdirect
      cases hdirect
    · exact Or.inr htimedOut
  · rintro (⟨first, hne, hshows⟩ | htimedOut)
    · cases hroute : shown probe.result with
      | direct => rfl
      | trusted => exact absurd (hshows.shown_eq_trusted_iff.1 hroute) hne
    · rw [htimedOut]
      rfl

end Shows

/-- What a listener has learned, beginning with an empty table and as long as its replies are genuine. It knows the trusted
route for a name iff the probe behind the first verdict recorded for the name, in whatever case, was answered with an address
first, and the direct route iff that probe was answered otherwise or timed out. Reverse queries and probes that fail otherwise
change nothing, and what is known stays. -/
theorem learned_exact (send : Sender σ) (hgenuine : send.Genuine) (l : Listener) (s : σ) (resolver : Resolver) (capacity : Nat)
    (hstart : l.probing = some ⟨resolver, .empty capacity⟩) (rs : List Received) (k : Nat) :
    let state := stateAt (serve send) (l, s) rs
    (∀ name,
      ((state k).1.route? name = some .trusted ↔
        ∃ j < k, ∃ probe, FirstRecorded send (l, s) rs j name probe ∧ probe.Shows (some RRType.a)) ∧
      ((state k).1.route? name = some .direct ↔
        ∃ j < k, ∃ probe, FirstRecorded send (l, s) rs j name probe ∧
          ((∃ first, first ≠ some RRType.a ∧ probe.Shows first) ∨ probe.result = .error .timedOut))) ∧
    (∀ r, rs[k]? = some r →
      (∀ m q, triage r.octets r.client.canonical = .forward m q → q.qtype = RRType.ptr → (state (k + 1)).1 = (state k).1) ∧
      ∀ probe ∈ (state k).1.attempts send (state k).2 r, probe.out.kind = .probe → ∀ e, probe.result = .error e →
        e ≠ .timedOut → (state (k + 1)).1 = (state k).1) ∧
    ∀ name route, (state k).1.route? name = some route → ∀ later ≥ k, (state later).1.route? name = some route := by
  intro state
  have hbacked : ∀ k, Backed send (l, s) rs k := backed hstart
  -- what is known is what the probe behind the first verdict has shown
  have hknown (k : Nat) (name : Name) (route : Route) : (state k).1.route? name = some route ↔
      ∃ j < k, ∃ probe, FirstRecorded send (l, s) rs j name probe ∧ shown probe.result = route := by
    constructor
    · intro h
      rcases (hbacked k).known name with ⟨hunknown, -⟩ | ⟨j, hj, probe, hfirst, hroute⟩
      · rw [hunknown] at h
        cases h
      · exact ⟨j, hj, probe, hfirst, Option.some.inj (hroute.symm.trans h)⟩
    · rintro ⟨j, hj, probe, hfirst, rfl⟩
      rcases (hbacked k).known name with ⟨-, hbefore⟩ | ⟨j', -, probe', hfirst', hroute⟩
      · exact absurd hfirst.1 (hbefore j hj probe)
      · obtain rfl := hfirst.eq hfirst'
        rw [hroute, hfirst.1.eq hfirst'.1 (hbacked j)]
  refine ⟨fun name => ⟨?_, ?_⟩, fun r hr => ?_, fun name route h later hlater => ?_⟩
  · rw [hknown]
    refine exists_congr fun j => and_congr_right fun hj => exists_congr fun probe => and_congr_right fun hfirst => ?_
    obtain ⟨p, r, -, -, hlearns⟩ := hfirst.1.learns (hbacked j)
    exact hlearns.shown_eq_trusted_iff hgenuine
  · rw [hknown]
    refine exists_congr fun j => and_congr_right fun hj => exists_congr fun probe => and_congr_right fun hfirst => ?_
    obtain ⟨p, r, -, -, hlearns⟩ := hfirst.1.learns (hbacked j)
    exact hlearns.shown_eq_direct_iff hgenuine
  · obtain ⟨p, hprobing⟩ := (hbacked k).probing
    have hnext : state (k + 1) = (serve send (state k) r).2 := stateAt_succ hr
    rw [hnext]
    rcases handle_cases hprobing send (state k).2 r with ⟨hsame, -⟩ | ⟨probe, hlearns⟩
    · exact ⟨fun _ _ _ _ => hsame, fun _ _ _ _ _ _ => hsame⟩
    · refine ⟨fun m q ht hptr => absurd hptr (hlearns.asked m q ht), fun a ha hkind e he hne => ?_⟩
      rw [hlearns.only a ha hkind] at he
      rcases hlearns.verdict with ⟨reply, hok⟩ | htimedOut
      · rw [hok] at he
        cases he
      · rw [htimedOut] at he
        cases he
        exact absurd rfl hne
  · obtain ⟨j, hj, probe, hfirst, hroute⟩ := (hknown k name route).1 h
    exact (hknown later name route).2 ⟨j, Nat.lt_of_lt_of_le hj hlater, probe, hfirst, hroute⟩

/-- The probe for `a.` is answered with an address, so behind this query and another one for `A.` the trusted route is known
for `A.` too. The table has room for one name. -/
theorem learned_exact_forged :
    let small : Name := ⟨[1, 97, 0]⟩
    let octets : Octets := #[66, 66, 1, 0, 0, 1, 0, 0, 0, 0, 0, 0, 1, 97, 0, 0, 1, 0, 1]
    let octets' : Octets := #[66, 66, 1, 0, 0, 1, 0, 0, 0, 0, 0, 0, 1, 65, 0, 0, 1, 0, 1]
    let forged : Octets := #[0, 7, 129, 128, 0, 1, 0, 1, 0, 0, 0, 0, 1, 97, 0, 0, 6, 0, 1, 192, 12, 0, 1, 0, 1, 0, 0, 0, 60, 0, 4,
      192, 0, 2, 1]
    let prober : Resolver := ⟨.v4 3 53, .udp⟩
    let send : Sender Unit := fun s _ out => (if out.question = Probe.question small then .ok forged else .error .timedOut, s)
    let l : Listener := ⟨⟨.v4 1 53, .udp⟩, some ⟨.v4 2 53, .tcp⟩, some ⟨prober, .empty 1⟩, .servFail, true⟩
    let rs : List Received := [⟨octets, .v4 4 53, .udp⟩, ⟨octets', .v4 4 53, .udp⟩]
    send.Genuine ∧ l.probing = some ⟨prober, .empty 1⟩ ∧
      (stateAt (serve send) (l, ()) rs 2).1.route? ⟨[1, 65, 0]⟩ = some .trusted := by
  intro small octets octets' forged prober send l rs
  let q : Question := ⟨small, RRType.a, RRClass.internet⟩
  have hp : Response.parse? forged (.v4 3 53) = .ok ⟨7, .noError, false, some ⟨⟨[1, 97, 0]⟩, RRType.soa, RRClass.internet⟩,
      [⟨⟨[1, 97, 0]⟩, RRType.a, RRClass.internet, Ttl.ofWire 60, [192, 0, 2, 1]⟩], .v4 3 53⟩ := by cbv
  -- the reply repeats the question of every probe that it answers
  have hanswered : ∀ out : Outbound, out.question = Probe.question small → Forwarder.Answered out forged := fun out hout =>
    (Forwarder.answered_iff _ _).2 ⟨.v4 3 53, _, false, fun _ => false, hp, by decide, congrArg some hout.symm⟩
  have hgenuine : send.Genuine := by
    intro s resolver out reply hok
    dsimp only [send] at hok
    split at hok
    · rename_i hquestion
      cases hok
      exact hanswered out hquestion
    · cases hok
  have ht : triage octets (Endpoint.v4 4 53).canonical = .forward ⟨octets, by decide⟩ q := by cbv
  have hunknown : l.Unknown ⟨prober, .empty 1⟩ q := ⟨rfl, by decide, rfl⟩
  obtain ⟨probes, relays, route, hrouted, -, -, hattempts, -⟩ := handle_routed l send () (r := ⟨octets, .v4 4 53, .udp⟩) ht
  obtain ⟨message, -, out, hout, rfl⟩ := hrouted.probes_of_unknown hunknown
  have hquestion : out.question = Probe.question small := by rw [hout]
  have hsent : (send () prober out).1 = .ok forged := if_pos hquestion
  have hrecorded : RecordedAt send (l, ()) rs 0 ⟨[1, 65, 0]⟩ ⟨prober, out, (send () prober out).1⟩ := by
    refine (recordedAt_iff rfl _ _).2 ⟨⟨_, rfl, Nat.one_pos⟩, ?_, by rw [hout], ?_, Or.inl ⟨forged, hsent⟩⟩
    · exact hattempts ▸ List.mem_append_left _ (List.mem_singleton_self _)
    · rw [hquestion]
      decide
  have hfirst : FirstRecorded send (l, ()) rs 0 ⟨[1, 65, 0]⟩ ⟨prober, out, (send () prober out).1⟩ :=
    ⟨hrecorded, fun j hj => absurd hj (Nat.not_lt_zero j)⟩
  have hknown := (learned_exact send hgenuine l () prober 1 rfl rs 2).1 ⟨[1, 65, 0]⟩
  refine ⟨hgenuine, rfl, hknown.1.2 ⟨0, Nat.two_pos, _, hfirst, forged, .v4 3 53, _, hsent, ?_, hp, rfl⟩⟩
  exact hanswered out hquestion

end Listener

end DnsRelay
