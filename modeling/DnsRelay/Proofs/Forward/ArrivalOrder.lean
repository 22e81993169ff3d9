import DnsRelay.Proofs.Forward.Outcome
import DnsRelay.Proofs.Transcript

/-!
# The order of arrival

Messages are taken in one after another. Which query gets which message does not depend on how the messages for different
queries are mixed: each pending query gets the first message that it accepts (`Coherent.takes_in`). The main result,
`arrival_order_free`, compares two orders of arrival, and a run with one from which undelivered messages were left out.
-/

namespace DnsRelay

/-- The id and the source by which a message is matched with a query; nothing if the octets are no response. -/
def Response.key? (arrival : Octets × Endpoint) : Option (UInt16 × Endpoint) :=
  (Response.parse? arrival.1 arrival.2).toOption.map fun response => (response.id, arrival.2.canonical)

/-- A message is accepted for a query: it has its id, it comes from its server, and it passes all checks. -/
def Validator.accepts (v : Validator) (query : PendingQuery) (arrival : Octets × Endpoint) : Bool :=
  match Response.parse? arrival.1 arrival.2 with
  | .error _ => false
  | .ok response =>
    query.id = response.id && query.server = arrival.2.canonical && v.validate response query = .ok ()

/-- A message that is accepted for a query is matched by the id and the server of the query. -/
theorem Validator.key?_of_accepts {v : Validator} {query : PendingQuery} {arrival : Octets × Endpoint}
    (h : v.accepts query arrival = true) : Response.key? arrival = some (query.id, query.server) := by
  unfold accepts at h
  cases hp : Response.parse? arrival.1 arrival.2 with
  | error e => simp [hp] at h
  | ok response =>
    simp only [hp, Bool.and_eq_true, decide_eq_true_eq] at h
    rw [Response.key?, hp, h.1.1, h.1.2]
    rfl

namespace Forwarder

/-- Takes in a message. -/
def takeIn (f : Forwarder) (arrival : Octets × Endpoint) : Outcome × Forwarder :=
  f.receive arrival.1 arrival.2

/-- Whoever holds the handle waits for what comes of the query. -/
structure Awaits (f : Forwarder) (h : Handle) (query : PendingQuery) : Prop where
  live : ⟨h.token, query, h.mailbox⟩ ∈ f.live
  id : h.id = query.id
  server : h.server = query.server

/-- `f'` is `f` after several messages: each pending query that accepts one of them has ended with the first such message in its
mailbox. -/
structure TakesIn (f : Forwarder) (arrivals : List (Octets × Endpoint)) (f' : Forwarder) : Prop where
  live : f'.live = f.live.filter fun r => !arrivals.any (f.validator.accepts r.query)
  size : f'.mailboxes.size = f.mailboxes.size
  received : ∀ r ∈ f.live, f'.mailboxes[r.payload]? =
    some (((arrivals.find? (f.validator.accepts r.query)).map fun a => .delivered a.1).getD .waiting)
  kept : ∀ m, (∀ r ∈ f.live, r.payload ≠ m) → f'.mailboxes[m]? = f.mailboxes[m]?

/-! ## One message -/

/-- In a coherent forwarder a message is accepted for a pending query iff it has its key and passes the later checks. -/
theorem Coherent.accepts_iff {f : Forwarder} (h : f.Coherent) {octets : Octets} {source : Endpoint} {response : Response}
    (hp : Response.parse? octets source = .ok response) {r : Registration Nat} (hr : r ∈ f.live) :
    f.validator.accepts r.query (octets, source) = true ↔
      r.key = (response.id, source.canonical) ∧ f.validator.Passes response r.query := by
  simp only [Validator.accepts, hp, Bool.and_eq_true, decide_eq_true_eq, Registration.key, Prod.mk.injEq]
  refine and_congr_right fun hkey => ?_
  refine Validator.validate_ok_of_matching _ _ _ hkey.1.symm ?_
  rw [Response.source_of_parse? hp, h.table.canonical r hr]
  exact hkey.2

/-- Of the pending queries only those matter that are picked. -/
theorem Ends.congr {f f' : Forwarder} {gone gone' : Registration Nat → Bool} {contents : Mailbox}
    (e : f.Ends gone contents f') (hgone : ∀ r ∈ f.live, gone' r = gone r) : f.Ends gone' contents f' where
  coherent := e.coherent
  live := by
    rw [e.live]
    exact List.filter_congr fun r hr => by rw [hgone r hr]
  config := e.config
  validator := e.validator
  nextSerial := e.nextSerial
  size := e.size
  ended := fun r hr hg => e.ended r hr (by rw [← hgone r hr, hg])
  kept := fun m hm => e.kept m fun r hr hg => hm r hr (by rw [hgone r hr, hg])

/-- Where no pending query is picked, a forwarder with the same table and mailboxes has ended what was to end. -/
theorem Coherent.ends_none {f f' : Forwarder} (h : f.Coherent) {gone : Registration Nat → Bool} {contents : Mailbox}
    (hc : contents ≠ .waiting) (hgone : ∀ r ∈ f.live, gone r = false) (hconfig : f'.config = f.config)
    (hvalidator : f'.validator = f.validator) (htable : f'.table = f.table) (hboxes : f'.mailboxes = f.mailboxes) :
    f.Ends gone contents f' := by
  have hrest : (f.live.filter fun r => !gone r) = f.live := by
    rw [List.filter_eq_self]
    intro r hr
    rw [hgone r hr]
    rfl
  refine h.ends hc ?_ hconfig hvalidator (by rw [htable]) (by rw [hboxes]) ?_ fun m _ => by rw [hboxes]
  · rw [hrest, htable]
    exact h.table
  · intro r hr hg
    rw [hgone r hr] at hg
    cases hg

/-- A message ends the pending query that it is accepted for, if there is one; it is delivered iff there is one. -/
theorem Coherent.receive_ends {f : Forwarder} (h : f.Coherent) (octets : Octets) (source : Endpoint) :
    f.Ends (fun r => f.validator.accepts r.query (octets, source)) (.delivered octets) (f.receive octets source).2 ∧
      ((f.receive octets source).1 = .delivered ↔ ∃ r ∈ f.live, f.validator.accepts r.query (octets, source) = true) := by
  cases hp : Response.parse? octets source with
  | error e =>
    have hnone : ∀ query, f.validator.accepts query (octets, source) = false := fun query => by
      simp [Validator.accepts, hp]
    rw [receive_malformed f hp]
    exact ⟨h.ends_none nofun (fun r _ => hnone r.query) rfl rfl rfl rfl, by simp [hnone]⟩
  | ok response =>
    have hdelivered : ∀ r ∈ f.live, f.validator.accepts r.query (octets, source) = true →
        (f.receive octets source).1 = .delivered := by
      intro r hr ha
      obtain ⟨hkey, hpasses⟩ := (h.accepts_iff hp hr).1 ha
      exact (h.outcome_of_key hp hr hkey).1.2 hpasses
    have hstays : ∀ outcome stats, f.receive octets source = (outcome, { f with stats }) → outcome ≠ .delivered →
        f.Ends (fun r => f.validator.accepts r.query (octets, source)) (.delivered octets) (f.receive octets source).2 ∧
          ((f.receive octets source).1 = .delivered ↔
            ∃ r ∈ f.live, f.validator.accepts r.query (octets, source) = true) := by
      intro outcome stats he hne
      have hnone : ∀ r ∈ f.live, f.validator.accepts r.query (octets, source) = false := by
        intro r hr
        rw [← Bool.not_eq_true]
        intro ha
        have hd := hdelivered r hr ha
        rw [he] at hd
        exact hne hd
      rw [he]
      refine ⟨h.ends_none nofun hnone rfl rfl rfl rfl, fun hd => absurd hd hne, ?_⟩
      rintro ⟨r, hr, ha⟩
      rw [hnone r hr] at ha
      cases ha
    rcases h.receive_cases hp with ⟨-, he⟩ | ⟨r, -, -, he⟩ | ⟨reason, r, -, -, -, he⟩ |
      ⟨r, hr, hkey, hpasses, hd, -, hends⟩
    · exact hstays _ _ he nofun
    · exact hstays _ _ he nofun
    · exact hstays _ _ he nofun
    · refine ⟨hends.congr fun x hx => ?_, fun _ => ⟨r, hr, (h.accepts_iff hp hr).2 ⟨hkey, hpasses⟩⟩, fun _ => hd⟩
      rw [Bool.eq_iff_iff, h.accepts_iff hp hx, h.named_iff hx hr]
      constructor
      · rintro ⟨hx', -⟩
        exact h.table.eq_of_key hx hr (hx'.trans hkey.symm)
      · rintro rfl
        exact ⟨hkey, hpasses⟩

/-! ## Several messages -/

/-- Taking in several messages gives each pending query the first of them that is accepted for it. -/
theorem Coherent.takes_in {f : Forwarder} (h : f.Coherent) (arrivals : List (Octets × Endpoint)) :
    f.TakesIn arrivals (transcript takeIn f arrivals).2 := by
  induction arrivals generalizing f with
  | nil =>
    refine ⟨by simp [transcript], rfl, fun r hr => ?_, fun m _ => rfl⟩
    rw [transcript, (h.waiting r.payload).2 ⟨r, hr, rfl⟩]
    rfl
  | cons a arrivals ih =>
    obtain ⟨hends, -⟩ := h.receive_ends a.1 a.2
    have hrest := ih hends.coherent
    rw [transcript_cons]
    change f.TakesIn (a :: arrivals) (transcript takeIn (f.receive a.1 a.2).2 arrivals).2
    constructor
    · rw [hrest.live, hends.live, hends.validator, List.filter_filter]
      refine List.filter_congr fun r _ => ?_
      rw [List.any_cons, Bool.not_or, Bool.and_comm]
    · rw [hrest.size, hends.size]
    · intro r hr
      cases ha : f.validator.accepts r.query a with
      | true =>
        have hothers : ∀ x ∈ (f.receive a.1 a.2).2.live, x.payload ≠ r.payload := by
          intro x hx hxr
          rw [hends.live, List.mem_filter] at hx
          rw [h.eq_of_payload hx.1 hr hxr, ha] at hx
          cases hx.2
        rw [hrest.kept _ hothers, hends.ended r hr ha, List.find?_cons_of_pos ha]
        rfl
      | false =>
        have hr' : r ∈ (f.receive a.1 a.2).2.live := by
          rw [hends.live, List.mem_filter, ha]
          exact ⟨hr, rfl⟩
        rw [hrest.received r hr', hends.validator, List.find?_cons_of_neg (by rw [ha]; exact Bool.false_ne_true)]
    · intro m hm
      rw [hrest.kept m, hends.kept m fun r hr _ => hm r hr]
      intro r hr
      rw [hends.live, List.mem_filter] at hr
      exact hm r hr.1

/-- If of two sequences of messages each pending query accepts the same first one, both lead to the same mailboxes and leave the
same queries pending. -/
theorem TakesIn.eq_of_find?_eq {f g g' : Forwarder} {arrivals others : List (Octets × Endpoint)} (h : f.TakesIn arrivals g)
    (h' : f.TakesIn others g') (hfirst : ∀ r ∈ f.live,
      others.find? (f.validator.accepts r.query) = arrivals.find? (f.validator.accepts r.query)) :
    g'.mailboxes = g.mailboxes ∧ g'.live = g.live := by
  constructor
  · refine Array.ext_getElem? fun m => ?_
    by_cases hm : ∃ r ∈ f.live, r.payload = m
    · obtain ⟨r, hr, rfl⟩ := hm
      rw [h'.received r hr, h.received r hr, hfirst r hr]
    · have hnone : ∀ r ∈ f.live, r.payload ≠ m := fun r hr he => hm ⟨r, hr, he⟩
      rw [h'.kept m hnone, h.kept m hnone]
  · rw [h'.live, h.live]
    refine List.filter_congr fun r hr => ?_
    rw [← List.isSome_find?, ← List.isSome_find?, hfirst r hr]

/-- Which message is the first that a query accepts depends only on the messages with its key. -/
theorem find?_accepts_eq (v : Validator) (query : PendingQuery) (arrivals : List (Octets × Endpoint)) :
    arrivals.find? (v.accepts query) =
      (arrivals.filter (Response.key? · = some (query.id, query.server))).find? (v.accepts query) := by
  rw [List.find?_filter]
  congr 1
  funext a
  rw [Bool.eq_iff_iff]
  simpa using Validator.key?_of_accepts

/-- Messages that are not delivered are nobody's first accepted one. -/
theorem Coherent.find?_kept {f : Forwarder} (h : f.Coherent) (arrivals : List (Octets × Endpoint)) {kept : Nat → Bool}
    {n : Nat} (hkept : ∀ i : Nat, (transcript takeIn f arrivals).1[i]? = some .delivered → kept (n + i) = true)
    {r : Registration Nat} (hr : r ∈ f.live) :
    (((arrivals.zipIdx n).filter fun x => kept x.2).map (·.1)).find? (f.validator.accepts r.query) =
      arrivals.find? (f.validator.accepts r.query) := by
  induction arrivals generalizing f n with
  | nil => rfl
  | cons a arrivals ih =>
    obtain ⟨hends, hdelivered⟩ := h.receive_ends a.1 a.2
    rw [transcript_cons] at hkept
    rw [List.zipIdx_cons, List.filter_cons]
    cases ha : f.validator.accepts r.query a with
    | true =>
      have hn : kept n = true := hkept 0 (congrArg some (hdelivered.2 ⟨r, hr, ha⟩))
      rw [if_pos hn, List.map_cons, List.find?_cons_of_pos ha, List.find?_cons_of_pos ha]
    | false =>
      have hneg : ¬f.validator.accepts r.query a = true := by
        rw [ha]
        exact Bool.false_ne_true
      have hr' : r ∈ (f.receive a.1 a.2).2.live := by
        rw [hends.live, List.mem_filter, ha]
        exact ⟨hr, rfl⟩
      have hrest := ih hends.coherent (n := n + 1) (fun i hi => by
        rw [Nat.add_right_comm]
        exact hkept (i + 1) hi) hr'
      rw [hends.validator] at hrest
      rw [List.find?_cons_of_neg hneg, ← hrest]
      split
      · rw [List.map_cons, List.find?_cons_of_neg hneg]
      · rfl

/-- The order of arrival does not matter, in any state that a run leads to. Whoever waits gets the first message that is
accepted for the query, if there is one, and no other mailbox changes. A reordering that keeps the messages of each id and
source in order delivers the same and leaves the same queries pending. So does leaving out messages not delivered. -/
theorem arrival_order_free (config : ForwardConfig) (validator : Validator) (actions : List Action)
    (arrivals : List (Octets × Endpoint)) :
    let f := (start config validator).run actions
    let outcomes : List Outcome := (transcript takeIn f arrivals).1
    let f' := (transcript takeIn f arrivals).2
    ((∀ h query, f.Awaits h query →
        f'.result? h = (arrivals.find? (validator.accepts query)).map (fun a => .ok a.1) ∧
          (f'.Awaits h query ↔ ∀ a ∈ arrivals, validator.accepts query a = false)) ∧
      ∀ m, (∀ h query, f.Awaits h query → h.mailbox ≠ m) → f'.mailboxes[m]? = f.mailboxes[m]?) ∧
    (∀ others : List (Octets × Endpoint),
      (∀ key, others.filter (Response.key? · = some key) = arrivals.filter (Response.key? · = some key)) →
      (transcript takeIn f others).2.mailboxes = f'.mailboxes ∧ (transcript takeIn f others).2.live = f'.live) ∧
    (∀ kept : Nat → Bool, (∀ i : Nat, outcomes[i]? = some .delivered → kept i = true) →
      let rest := (arrivals.zipIdx.filter fun x => kept x.2).map (·.1)
      (transcript takeIn f rest).2.mailboxes = f'.mailboxes ∧ (transcript takeIn f rest).2.live = f'.live) := by
  intro f outcomes f'
  have h : f.Coherent := (coherent_start config validator).run actions
  have hvalidator : f.validator = validator := by
    have := (coherent_start config validator).after_config actions actions.length
    rw [after_length] at this
    exact this.2
  have htakes : f.TakesIn arrivals f' := h.takes_in arrivals
  refine ⟨⟨?_, ?_⟩, ?_, ?_⟩
  · intro handle query hawaits
    have hreceived := htakes.received _ hawaits.live
    rw [hvalidator] at hreceived
    constructor
    · rw [result?, hreceived]
      cases arrivals.find? (validator.accepts query) <;> rfl
    · have hlive := htakes.live
      rw [hvalidator] at hlive
      constructor
      · intro hawaits'
        have hr := hawaits'.live
        rw [hlive, List.mem_filter] at hr
        simpa using hr.2
      · intro hnone
        refine ⟨?_, hawaits.id, hawaits.server⟩
        rw [hlive, List.mem_filter]
        exact ⟨hawaits.live, by simpa using hnone⟩
  · intro m hm
    refine htakes.kept m fun r hr => ?_
    exact hm ⟨r.token, r.query.id, r.payload, r.query.server⟩ r.query ⟨hr, rfl, rfl⟩
  · intro others hothers
    refine htakes.eq_of_find?_eq (h.takes_in others) fun r _ => ?_
    rw [find?_accepts_eq, find?_accepts_eq _ _ arrivals, hothers]
  · intro kept hkept rest
    refine htakes.eq_of_find?_eq (h.takes_in rest) fun r hr => ?_
    exact h.find?_kept arrivals (n := 0) (fun i hi => by rw [Nat.zero_add]; exact hkept i hi) hr

/-- What is said of a message that is not delivered may depend on the order: it names the oldest query that is pending under its
id, and here the first message of two ends this one. -/
example :
    let query : Octets := #[0, 0, 1, 0, 0, 1, 0, 0, 0, 0, 0, 0, 1, 97, 0, 0, 1, 0, 1]
    let answer : Octets := #[0, 7, 128, 0, 0, 1, 0, 0, 0, 0, 0, 0, 1, 97, 0, 0, 1, 0, 1]
    let out : Outbound := ⟨query, ⟨⟨[1, 97, 0]⟩, RRType.a, RRClass.internet⟩, .v4 0 0, .relay⟩
    let draws : Draws := ⟨fun _ => ⟨7, by decide⟩, fun _ => false⟩
    let f := (start ⟨1000, 2, false⟩ ⟨64, none⟩).run
      [.send 0 draws none out ⟨.v4 1 53, .udp⟩, .send 0 draws none out ⟨.v4 2 53, .udp⟩]
    (transcript takeIn f [(answer, .v4 1 53), (answer, .v4 3 53)]).1 =
        [.delivered, .dropped (.sourceMismatch (.v4 2 53) (.v4 3 53))] ∧
      (transcript takeIn f [(answer, .v4 3 53), (answer, .v4 1 53)]).1 =
        [.dropped (.sourceMismatch (.v4 1 53) (.v4 3 53)), .delivered] := by
  cbv

end Forwarder

end DnsRelay
