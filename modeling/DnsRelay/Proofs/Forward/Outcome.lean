import DnsRelay.Proofs.Forward.Run

/-!
# What becomes of a message

The main result, `receive_exact`, is about every state that a run of a forwarder leads to: which outcome a message from a
source has, what it changes, and which counter it moves.
-/

namespace DnsRelay

/-- The counters with one more of an outcome. -/
def Stats.count (s : Stats) : Outcome → Stats
  | .delivered => { s with delivered := s.delivered + 1 }
  | .dropped _ => { s with dropped := s.dropped + 1 }
  | .unmatched => { s with unmatched := s.unmatched + 1 }
  | .malformed => { s with malformed := s.malformed + 1 }

/-- The checks that come after those of id and source find no fault with either. -/
theorem Validator.Fails.not_origin {v : Validator} {response : Response} {query : PendingQuery} {reason : RejectReason}
    (h : v.Fails response query reason) :
    (∀ expected received, reason ≠ .idMismatch expected received) ∧
      ∀ expected received, reason ≠ .sourceMismatch expected received := by
  cases h with
  | recased _ _ _ => exact ⟨nofun, nofun⟩
  | misquoted _ => exact ⟨nofun, nofun⟩
  | overlong _ _ => exact ⟨nofun, nofun⟩
  | blocked _ _ _ _ _ _ _ => exact ⟨nofun, nofun⟩

namespace Forwarder

namespace Coherent

variable {f : Forwarder}

/-- The outcome is malformed iff the octets are no response. -/
theorem outcome_malformed_iff (h : f.Coherent) (octets : Octets) (source : Endpoint) :
    (f.receive octets source).1 = .malformed ↔ ∃ e, Response.parse? octets source = .error e := by
  cases hp : Response.parse? octets source with
  | error e => simp [receive_malformed f hp]
  | ok response =>
    rcases h.receive_cases hp with ⟨-, he⟩ | ⟨r, -, -, he⟩ | ⟨reason, r, -, -, -, he⟩ | ⟨r, -, -, -, he, -⟩ <;> simp [he]

/-- The outcome for a response is unmatched iff no pending query has its id. -/
theorem outcome_unmatched_iff (h : f.Coherent) {octets : Octets} {source : Endpoint} {response : Response}
    (hp : Response.parse? octets source = .ok response) :
    (f.receive octets source).1 = .unmatched ↔ ∀ r ∈ f.live, r.query.id ≠ response.id := by
  have hkeyed : ∀ r ∈ f.live, r.key = (response.id, source.canonical) → ¬∀ x ∈ f.live, x.query.id ≠ response.id :=
    fun r hr hkey hall => hall r hr (congrArg Prod.fst hkey)
  rcases h.receive_cases hp with ⟨hid, he⟩ | ⟨r, -, hf, he⟩ | ⟨reason, r, hr, hkey, -, he⟩ | ⟨r, hr, hkey, -, he, -⟩
  · simpa [he] using hid
  · have hr := List.mem_of_find?_eq_some hf
    have hid : r.query.id = response.id := by simpa using List.find?_some hf
    simpa [he] using ⟨r, hr, hid⟩
  · simpa [he] using hkeyed r hr hkey
  · simpa [he] using hkeyed r hr hkey

/-- A response is dropped for its source iff pending queries have its id, but none at its source; the server of the oldest
one is named as the one expected. -/
theorem outcome_sourceMismatch_iff (h : f.Coherent) {octets : Octets} {source : Endpoint} {response : Response}
    (hp : Response.parse? octets source = .ok response) (expected received : Endpoint) :
    (f.receive octets source).1 = .dropped (.sourceMismatch expected received) ↔
      (∀ r ∈ f.live, r.query.id = response.id → r.query.server ≠ source.canonical) ∧ received = source.canonical ∧
        ∃ r, f.live.find? (·.query.id = response.id) = some r ∧ expected = r.query.server := by
  have hkeyed : ∀ r ∈ f.live, r.key = (response.id, source.canonical) →
      ¬∀ x ∈ f.live, x.query.id = response.id → x.query.server ≠ source.canonical :=
    fun r hr hkey hall => hall r hr (congrArg Prod.fst hkey) (congrArg Prod.snd hkey)
  rcases h.receive_cases hp with ⟨hid, he⟩ | ⟨r, hnone, hf, he⟩ | ⟨reason, r, hr, hkey, hfails, he⟩ |
    ⟨r, hr, hkey, -, he, -⟩
  · rw [he]
    constructor
    · intro hdropped
      cases hdropped
    · rintro ⟨-, -, r, hf, -⟩
      exact absurd (by simpa using List.find?_some hf) (hid r (List.mem_of_find?_eq_some hf))
  · rw [he, hf]
    have hother : ∀ x ∈ f.live, x.query.id = response.id → x.query.server ≠ source.canonical :=
      fun x hx hid hs => hnone x hx (by rw [Registration.key, hid, hs])
    constructor
    · rintro ⟨rfl, rfl⟩
      exact ⟨hother, rfl, r, rfl, rfl⟩
    · rintro ⟨-, rfl, _, ⟨rfl⟩, rfl⟩
      rfl
  · rw [he]
    constructor
    · rintro ⟨rfl⟩
      exact absurd rfl (hfails.not_origin.2 _ _)
    · rintro ⟨hall, -⟩
      exact absurd hall (hkeyed r hr hkey)
  · rw [he]
    constructor
    · intro hdropped
      cases hdropped
    · rintro ⟨hall, -⟩
      exact absurd hall (hkeyed r hr hkey)

/-- For a response with the id and the source of a pending query, which is the only such query, the later checks decide. -/
theorem outcome_of_key (h : f.Coherent) {octets : Octets} {source : Endpoint} {response : Response}
    (hp : Response.parse? octets source = .ok response) {r : Registration Nat} (hr : r ∈ f.live)
    (hkey : r.key = (response.id, source.canonical)) :
    ((f.receive octets source).1 = .delivered ↔ f.validator.Passes response r.query) ∧
      ∀ reason, (f.receive octets source).1 = .dropped reason ↔ f.validator.Fails response r.query reason := by
  have hid : response.id = r.query.id := (congrArg Prod.fst hkey).symm
  have hserver : r.query.server.canonical = response.source.canonical := by
    rw [Response.source_of_parse? hp, h.table.canonical r hr]
    exact congrArg Prod.snd hkey
  have hfound : f.live.find? (·.key = (response.id, source.canonical)) = some r := by
    rw [← hkey]
    exact h.table.find?_key hr
  rw [← Validator.validate_ok_of_matching _ _ _ hid hserver]
  simp only [← Validator.validate_error_of_matching _ _ _ hid hserver]
  cases hv : f.validator.validate response r.query with
  | error reason =>
    rw [h.receive_dropped hp (by rw [hfound, Option.some_or]) hv]
    simp
  | ok _ =>
    rw [(h.receive_delivered hp hr hkey hv).1]
    simp

/-- No response is dropped for its id. -/
theorem outcome_ne_idMismatch (h : f.Coherent) (octets : Octets) (source : Endpoint) (expected received : UInt16) :
    (f.receive octets source).1 ≠ .dropped (.idMismatch expected received) := by
  cases hp : Response.parse? octets source with
  | error e =>
    rw [receive_malformed f hp]
    nofun
  | ok response =>
    rcases h.receive_cases hp with ⟨-, he⟩ | ⟨r, -, -, he⟩ | ⟨reason, r, -, -, hfails, he⟩ | ⟨r, -, -, -, he, -⟩
    · rw [he]
      nofun
    · rw [he]
      nofun
    · rw [he]
      rintro ⟨rfl⟩
      exact hfails.not_origin.1 _ _ rfl
    · rw [he]
      nofun

/-- A message changes the table and the mailboxes only if it is delivered. Then it takes out one query, that of its id and
source, and puts the octets into the mailbox of this query and into no other. -/
theorem receive_frame (h : f.Coherent) (octets : Octets) (source : Endpoint) :
    let outcome := (f.receive octets source).1
    let f' := (f.receive octets source).2
    f'.config = f.config ∧ f'.validator = f.validator ∧ f'.stats = f.stats.count outcome ∧
      (outcome ≠ .delivered → f'.table = f.table ∧ f'.mailboxes = f.mailboxes) ∧
      (outcome = .delivered → ∃ response, Response.parse? octets source = .ok response ∧ ∃ r ∈ f.live,
        r.query.id = response.id ∧ r.query.server = source.canonical ∧ f'.live = f.live.filter (· ≠ r) ∧
        ∀ m, f'.mailboxes[m]? = if m = r.payload then some (.delivered octets) else f.mailboxes[m]?) := by
  intro outcome f'
  cases hp : Response.parse? octets source with
  | error e => simp [outcome, f', receive_malformed f hp, Stats.count]
  | ok response =>
    rcases h.receive_cases hp with ⟨-, he⟩ | ⟨r, -, -, he⟩ | ⟨reason, r, -, -, -, he⟩ |
      ⟨r, hr, hkey, hpasses, he, hstats, hends⟩
    · simp [outcome, f', he, Stats.count]
    · simp [outcome, f', he, Stats.count]
    · simp [outcome, f', he, Stats.count]
    · refine ⟨hends.config, hends.validator, ?_, fun hne => absurd he hne, fun _ => ⟨response, rfl, r, hr,
        congrArg Prod.fst hkey, congrArg Prod.snd hkey, ?_, fun m => ?_⟩⟩
      · rw [hstats, show outcome = .delivered from he, Stats.count]
      · rw [hends.live]
        refine List.filter_congr fun x hx => ?_
        rw [Bool.eq_iff_iff, Bool.not_eq_true', ← Bool.not_eq_true, h.named_iff hx hr, decide_eq_true_iff]
      · split
        · rename_i hm
          rw [hm, hends.ended r hr ((h.named_iff hr hr).2 rfl)]
        · rename_i hm
          refine hends.kept m fun x hx hn he => hm ?_
          rw [← he, (h.named_iff hx hr).1 hn]

end Coherent

/-- What becomes of a message, in any state that a run leads to.
1. It is malformed iff it cannot be read.
2. A response is unmatched iff no pending query has its id, and dropped for its source iff none of those has its source.
Otherwise one query has both, and the later checks decide.
3. It is never dropped for its id.
4. Delivery takes out this query and fills its mailbox.
5. The counter of the outcome moves. -/
theorem receive_exact (config : ForwardConfig) (validator : Validator) (actions : List Action) (octets : Octets)
    (source : Endpoint) :
    let f := (start config validator).run actions
    let outcome := (f.receive octets source).1
    let f' := (f.receive octets source).2
    (outcome = .malformed ↔ ∃ e, Response.parse? octets source = .error e) ∧
    (∀ response, Response.parse? octets source = .ok response →
      (outcome = .unmatched ↔ ∀ r ∈ f.live, r.query.id ≠ response.id) ∧
      (∀ expected received, outcome = .dropped (.sourceMismatch expected received) ↔
        (∀ r ∈ f.live, r.query.id = response.id → r.query.server ≠ source.canonical) ∧ received = source.canonical ∧
          ∃ r, f.live.find? (·.query.id = response.id) = some r ∧ expected = r.query.server) ∧
      ∀ r ∈ f.live, r.query.id = response.id → r.query.server = source.canonical →
        (∀ x ∈ f.live, x.query.id = response.id → x.query.server = source.canonical → x = r) ∧
        (outcome = .delivered ↔ validator.Passes response r.query) ∧
        ∀ reason, outcome = .dropped reason ↔ validator.Fails response r.query reason) ∧
    (∀ expected received, outcome ≠ .dropped (.idMismatch expected received)) ∧
    ((outcome ≠ .delivered → f'.table = f.table ∧ f'.mailboxes = f.mailboxes) ∧
      (outcome = .delivered → ∃ response, Response.parse? octets source = .ok response ∧ ∃ r ∈ f.live,
        r.query.id = response.id ∧ r.query.server = source.canonical ∧ f'.live = f.live.filter (· ≠ r) ∧
        ∀ m, f'.mailboxes[m]? = if m = r.payload then some (.delivered octets) else f.mailboxes[m]?)) ∧
    f'.stats = f.stats.count outcome := by
  intro f outcome f'
  have h : f.Coherent := (coherent_start config validator).run actions
  have hvalidator : f.validator = validator := by
    have := (coherent_start config validator).after_config actions actions.length
    rw [after_length] at this
    exact this.2
  obtain ⟨-, -, hstats, hother, hdelivered⟩ := h.receive_frame octets source
  refine ⟨h.outcome_malformed_iff octets source, ?_, h.outcome_ne_idMismatch octets source, ⟨hother, hdelivered⟩, hstats⟩
  intro response hp
  refine ⟨h.outcome_unmatched_iff hp, h.outcome_sourceMismatch_iff hp, ?_⟩
  intro r hr hid hs
  have hkey : r.key = (response.id, source.canonical) := by rw [Registration.key, hid, hs]
  obtain ⟨hd, hf⟩ := h.outcome_of_key hp hr hkey
  rw [hvalidator] at hd hf
  refine ⟨?_, hd, hf⟩
  intro x hx hxid hxs
  exact h.table.eq_of_key hx hr (by rw [hkey, Registration.key, hxid, hxs])

end Forwarder

end DnsRelay
