import DnsRelay.Proofs.Forward.Accounting
import DnsRelay.Proofs.Forward.Gap

/-!
# Queries that are not sent

Which id a query is sent under, and why it is not sent if it is not (`Coherent.send_verdict`). A query that cannot be sent was
registered before, and is taken out again; what is left of it is a gap (`Coherent.mirrors_unsent`). The main result,
`send_atomic`, is about every state that a run of a forwarder leads to.
-/

namespace DnsRelay

namespace Forwarder

/-- The gap that a query leaves that is registered and taken out again. -/
def nextGap (f : Forwarder) : Gap :=
  ⟨f.table.nextSerial, f.mailboxes.size⟩

/-- A query that was registered and could not be sent leaves its gap, and nothing else. -/
theorem Coherent.mirrors_unsent {f f₁ : Forwarder} (h : f.Coherent) {now : Nat} {draws : Draws} {out : Outbound}
    {server : Endpoint} {sent : Sent} (hp : f.prepare now draws out server = .ok (sent, f₁)) :
    f.Mirrors f.nextGap (f₁.countUnreachable.cancel sent.handle) := by
  have hs := h.prepare_ok hp
  obtain ⟨table, hclear, -⟩ := hs.adds.coherent.table.clear_mem hs.adds.mem
  rw [prepare_eq] at hp
  cases hfresh : f.registerFresh (f.queryFor now draws out server) draws.id maxIdAttempts 0 with
  | error e =>
    rw [hfresh] at hp
    cases hp
  | ok found =>
    obtain ⟨token, id, t⟩ := found
    rw [hfresh] at hp
    cases hp
    obtain ⟨k, -, -, -, hregister⟩ := registerFresh_ok hfresh
    have htable : f.table.Mirrors f.nextGap table :=
      h.table.mirrors_clear_register rfl (fun r hr => h.payload_lt hr) hregister hclear
    have hcancel : (Forwarder.countUnreachable { f with table := t, mailboxes := f.mailboxes.push .waiting }).table.clear token =
        some ((f.queryFor now draws out server id, f.mailboxes.size), table) := hclear
    rw [cancel, hcancel]
    refine ⟨rfl, rfl, htable, rfl, Nat.le_refl _, ?_, ?_⟩
    · simp [post, countUnreachable]
    · intro m
      by_cases hm : m < f.mailboxes.size
      · have hne : f.mailboxes.size ≠ m := Nat.ne_of_gt hm
        rw [nextGap, past_of_lt hm]
        simp [post, countUnreachable, Array.getElem?_setIfInBounds_ne hne, Array.getElem?_push, hne.symm]
      · have hle := Nat.le_of_not_lt hm
        have hnone : f.mailboxes[m]? = none := Array.getElem?_eq_none hle
        rw [nextGap, past_of_le hle, hnone]
        refine Array.getElem?_eq_none ?_
        simp [post, countUnreachable, hle]

/-! ## Which ids are tried -/

/-- A query is pending at a server under an id. -/
def Taken (f : Forwarder) (server : Endpoint) (id : UInt16) : Prop :=
  ∃ r ∈ f.live, r.key = (id, server.canonical)

/-- The `k`-th of the ids that are drawn is the first one that is free at a server, and one of those that are tried. -/
structure FirstFree (f : Forwarder) (server : Endpoint) (id : Nat → TransactionId) (k : Nat) : Prop where
  tried : k < 16
  free : ¬f.Taken server (id k).val
  before : ∀ j < k, f.Taken server (id j).val

/-- What comes of drawing ids: those that are tried are taken, or the first one that is free meets a full table, or it meets one
with room and is given to the query. -/
theorem Coherent.registerFresh_cases {f : Forwarder} (h : f.Coherent) (now : Nat) (draws : Draws) (out : Outbound)
    (server : Endpoint) (attempts next : Nat) :
    let result := f.registerFresh (f.queryFor now draws out server) draws.id attempts next
    (result = .error .noFreeId ∧ ∀ k, next ≤ k → k < next + attempts → f.Taken server (draws.id k).val) ∨
    ∃ k, next ≤ k ∧ k < next + attempts ∧ ¬f.Taken server (draws.id k).val ∧
      (∀ j, next ≤ j → j < k → f.Taken server (draws.id j).val) ∧
      (result = .error .queueFull ∧ f.table.capacity ≤ f.live.length ∨
        ∃ token t, result = .ok (token, (draws.id k).val, t) ∧ f.live.length < f.table.capacity) := by
  induction attempts generalizing next with
  | zero => exact Or.inl ⟨rfl, fun k hle hlt => by omega⟩
  | succ attempts ih =>
    have hserver : (f.queryFor now draws out server (draws.id next).val).server.canonical = server.canonical :=
      Endpoint.canonical_canonical server
    rw [registerFresh]
    rcases h.table.register_cases (f.queryFor now draws out server (draws.id next).val) f.mailboxes.size with
      ⟨he, htaken⟩ | ⟨he, hfree, hfull⟩ | ⟨token, t, he, hfree, hroom, -⟩
    · rw [hserver] at htaken
      have hsplit : ∀ j, next ≤ j → ¬next + 1 ≤ j → f.Taken server (draws.id j).val := by
        intro j hle hnot
        obtain rfl : j = next := by omega
        exact htaken
      rw [he]
      rcases ih (next + 1) with ⟨hresult, hall⟩ | ⟨k, hle, hlt, hk, hbefore, hresult⟩
      · refine Or.inl ⟨hresult, fun j hj hjlt => ?_⟩
        by_cases hnext : next + 1 ≤ j
        · exact hall j hnext (by omega)
        · exact hsplit j hj hnext
      · refine Or.inr ⟨k, by omega, by omega, hk, fun j hj hjlt => ?_, hresult⟩
        by_cases hnext : next + 1 ≤ j
        · exact hbefore j hnext hjlt
        · exact hsplit j hj hnext
    · have hnot : ¬f.Taken server (draws.id next).val := by
        rintro ⟨r, hr, hkey⟩
        exact hfree r hr (hserver ▸ hkey)
      rw [he]
      exact Or.inr ⟨next, Nat.le_refl _, by omega, hnot, fun j hle hlt => by omega, Or.inl ⟨rfl, hfull⟩⟩
    · have hnot : ¬f.Taken server (draws.id next).val := by
        rintro ⟨r, hr, hkey⟩
        exact hfree r hr (hserver ▸ hkey)
      rw [he]
      exact Or.inr ⟨next, Nat.le_refl _, by omega, hnot, fun j hle hlt => by omega, Or.inr ⟨token, t, rfl, hroom⟩⟩

/-- What comes of sending, and the state that it leaves: all sixteen ids are taken, or the first one that is free meets a full
table, or the query is registered under it and is sent, unless its datagram fails. -/
inductive Verdict (f : Forwarder) (now : Nat) (draws : Draws) (failure : Option LinkFailure) (out : Outbound)
    (resolver : Resolver) : Except ForwardError Sent × Forwarder → Prop where
  | noFreeId : (∀ k < 16, f.Taken resolver.endpoint (draws.id k).val) →
    Verdict f now draws failure out resolver (.error .noFreeId, f)
  | queueFull {k} : f.FirstFree resolver.endpoint draws.id k → f.table.capacity ≤ f.live.length →
    Verdict f now draws failure out resolver (.error .queueFull, f)
  | sent {k sent f₁} : f.FirstFree resolver.endpoint draws.id k → f.live.length < f.table.capacity →
    f.prepare now draws out resolver.endpoint = .ok (sent, f₁) → sent.handle.id = (draws.id k).val →
    (resolver.transport = .udp → failure = none) → Verdict f now draws failure out resolver (.ok sent, f₁)
  | unreachable {k sent f₁ e} : f.FirstFree resolver.endpoint draws.id k → f.live.length < f.table.capacity →
    f.prepare now draws out resolver.endpoint = .ok (sent, f₁) → resolver.transport = .udp → failure = some e →
    Verdict f now draws failure out resolver (.error (.unreachable e), f₁.countUnreachable.cancel sent.handle)

namespace Coherent

variable {f f' : Forwarder} {now : Nat} {draws : Draws} {failure : Option LinkFailure} {out : Outbound} {resolver : Resolver}

/-- Sending comes to one of these. -/
theorem send_verdict (h : f.Coherent) (now : Nat) (draws : Draws) (failure : Option LinkFailure) (out : Outbound)
    (resolver : Resolver) :
    f.Verdict now draws failure out resolver (f.send now draws failure out resolver) := by
  have hprepare := prepare_eq f now draws out resolver.endpoint
  rcases h.registerFresh_cases now draws out resolver.endpoint maxIdAttempts 0 with
    ⟨hresult, hall⟩ | ⟨k, -, hlt, hk, hbefore, hresult⟩
  · rw [hresult] at hprepare
    rw [send, hprepare]
    refine .noFreeId fun k hlt => hall k (Nat.zero_le k) ?_
    rw [Nat.zero_add]
    exact hlt
  · rw [Nat.zero_add] at hlt
    have hfirst : f.FirstFree resolver.endpoint draws.id k := ⟨hlt, hk, fun j hj => hbefore j (Nat.zero_le j) hj⟩
    rcases hresult with ⟨hresult, hfull⟩ | ⟨token, t, hresult, hroom⟩
    · rw [hresult] at hprepare
      rw [send, hprepare]
      exact .queueFull hfirst hfull
    · rw [hresult] at hprepare
      rw [send, hprepare]
      cases htransport : resolver.transport with
      | tcp => exact .sent hfirst hroom hprepare rfl fun hudp => by rw [htransport] at hudp; cases hudp
      | udp =>
        cases failure with
        | none => exact .sent hfirst hroom hprepare rfl fun _ => rfl
        | some e => exact .unreachable hfirst hroom hprepare htransport rfl

/-- A query that is sent goes by the first id that is free. -/
theorem send_firstFree (h : f.Coherent) {sent : Sent} (hsend : f.send now draws failure out resolver = (.ok sent, f')) :
    ∃ k, f.FirstFree resolver.endpoint draws.id k ∧ sent.handle.id = (draws.id k).val := by
  have hv := h.send_verdict now draws failure out resolver
  rw [hsend] at hv
  cases hv with
  | sent hk _ _ hid _ => exact ⟨_, hk, hid⟩

/-- A query that could not be registered changes nothing. -/
theorem send_refused (h : f.Coherent) {e : ForwardError} (hsend : f.send now draws failure out resolver = (.error e, f'))
    (he : ∀ failure, e ≠ .unreachable failure) : f' = f := by
  have hv := h.send_verdict now draws failure out resolver
  rw [hsend] at hv
  cases hv with
  | noFreeId _ => rfl
  | queueFull _ _ => rfl
  | unreachable _ _ _ _ _ => exact absurd rfl (he _)

/-- A query that could not be sent leaves its gap. -/
theorem send_unreachable (h : f.Coherent) {e : LinkFailure}
    (hsend : f.send now draws failure out resolver = (.error (.unreachable e), f')) : f.Mirrors f.nextGap f' := by
  have hv := h.send_verdict now draws failure out resolver
  rw [hsend] at hv
  cases hv with
  | unreachable _ _ hp _ _ => exact h.mirrors_unsent hp

/-- Which result sending has. -/
theorem send_result_iff (h : f.Coherent) (now : Nat) (draws : Draws) (failure : Option LinkFailure) (out : Outbound)
    (resolver : Resolver) :
    let free := ∃ k, f.FirstFree resolver.endpoint draws.id k
    let room := f.live.length < f.table.capacity
    let result := (f.send now draws failure out resolver).1
    ((∃ sent, result = .ok sent) ↔ free ∧ room ∧ (resolver.transport = .udp → failure = none)) ∧
      (result = .error .queueFull ↔ free ∧ ¬room) ∧
      (result = .error .noFreeId ↔ ¬free) ∧
      ∀ e, result = .error (.unreachable e) ↔ free ∧ room ∧ resolver.transport = .udp ∧ failure = some e := by
  intro free room result
  have hv := h.send_verdict now draws failure out resolver
  have hresult : result = (f.send now draws failure out resolver).1 := rfl
  generalize f.send now draws failure out resolver = ended at hv hresult
  cases hv with
  | noFreeId hall =>
    have hfree : ¬free := fun ⟨k, hk⟩ => hk.free (hall k hk.tried)
    simp [hresult, hfree]
  | queueFull hk hfull =>
    have hfree : free := ⟨_, hk⟩
    have hroom : ¬room := Nat.not_lt.2 hfull
    simp [hresult, hfree, hroom]
  | sent hk hlt _ _ hunfailed =>
    have hfree : free := ⟨_, hk⟩
    have hroom : room := hlt
    have hnot : ∀ e, ¬(resolver.transport = .udp ∧ failure = some e) := by
      rintro e ⟨hudp, hfailed⟩
      rw [hunfailed hudp] at hfailed
      cases hfailed
    simpa [hresult, hfree, hroom, hnot] using hunfailed
  | unreachable hk hlt _ hudp hfailed =>
    have hfree : free := ⟨_, hk⟩
    have hroom : room := hlt
    simp [hresult, hfree, hroom, hudp, hfailed]

/-- What was registered before the gap stays under its name. -/
theorem registration_nextGap (h : f.Coherent) {r : Registration Nat} (hr : r ∈ f.live) : f.nextGap.registration r = r := by
  have hserial : r.token.serial < f.nextGap.serial := h.table.fresh r hr
  have hbox : r.payload < f.nextGap.mailbox := h.payload_lt hr
  rw [Gap.registration, Gap.token, past_of_lt hserial, past_of_lt hbox]

end Coherent

/-- All sixteen ids are taken iff none of them is the first one that is free. -/
theorem not_exists_firstFree_iff (f : Forwarder) (server : Endpoint) (id : Nat → TransactionId) :
    (¬∃ k, f.FirstFree server id k) ↔ ∀ k < 16, f.Taken server (id k).val := by
  constructor
  · intro hnone k
    -- the ids in front of this one are taken, so if it were free it would be the first
    induction k using Nat.strongRecOn with
    | ind k ih =>
      intro hk
      by_contra hfree
      exact hnone ⟨k, hk, hfree, fun j hj => ih j hj (Nat.lt_trans hj hk)⟩
  · rintro hall ⟨k, hk⟩
    exact hk.free (hall k hk.tried)

/-- Sending is all or nothing.
1. A query that is sent is pending under the first of sixteen ids that is free at its server.
2.-5. That takes a free id, room, and a datagram that does not fail; the error tells what was missing.
6. A full queue and no free id change nothing.
7. Behind an unreachable server all goes on as if nothing had been sent, but for one count and for higher serial numbers and
mailboxes. -/
theorem send_atomic (config : ForwardConfig) (validator : Validator) (actions : List Action) (now : Nat) (draws : Draws)
    (failure : Option LinkFailure) (out : Outbound) (resolver : Resolver) :
    let f := (start config validator).run actions
    let server := resolver.endpoint
    let result := (f.send now draws failure out resolver).1
    let f' := (f.send now draws failure out resolver).2
    (∀ sent, result = .ok sent →
      (∃ k, f.FirstFree server draws.id k ∧ sent.handle.id = (draws.id k).val) ∧ sent.handle.id ≠ 0 ∧
        f'.live = f.live ++ [⟨sent.handle.token, f.queryFor now draws out server sent.handle.id, sent.handle.mailbox⟩] ∧
        f'.stats = f.stats ∧ f'.mailboxes = f.mailboxes.push .waiting) ∧
    ((∃ sent, result = .ok sent) ↔ (∃ k, f.FirstFree server draws.id k) ∧ f.pending < config.maxPending ∧
      (resolver.transport = .udp → failure = none)) ∧
    (result = .error .queueFull ↔ (∃ k, f.FirstFree server draws.id k) ∧ config.maxPending ≤ f.pending) ∧
    (result = .error .noFreeId ↔ ∀ k < 16, f.Taken server (draws.id k).val) ∧
    (∀ e, result = .error (.unreachable e) ↔ (∃ k, f.FirstFree server draws.id k) ∧ f.pending < config.maxPending ∧
      resolver.transport = .udp ∧ failure = some e) ∧
    (result = .error .queueFull ∨ result = .error .noFreeId → f' = f) ∧
    ∀ e, result = .error (.unreachable e) →
      f'.live = f.live ∧
      ∀ later : List Action,
        let g := f.run later
        let g' := f'.run (later.map f.nextGap.action)
        (transcript respond f' (later.map f.nextGap.action)).1 = (transcript respond f later).1.map f.nextGap.reply ∧
          g'.live = g.live.map f.nextGap.registration ∧
          g'.stats = { g.stats with unreachable := g.stats.unreachable + 1 } ∧
          ∀ handle, g'.result? (f.nextGap.handle handle) = g.result? handle := by
  intro f server result f'
  obtain ⟨h, hcapacity⟩ := capacity_after config validator actions actions.length
  rw [after_length] at h hcapacity
  have hsize : f.pending = f.live.length := h.table.size
  rw [hsize, ← hcapacity]
  obtain ⟨hok, hqueue, hfree, hunreachable⟩ := h.send_result_iff now draws failure out resolver
  rw [Nat.not_lt] at hqueue
  rw [not_exists_firstFree_iff] at hfree
  refine ⟨?_, hok, hqueue, hfree, hunreachable, ?_, ?_⟩
  · intro sent hsent
    have hsend : f.send now draws failure out resolver = (.ok sent, f') := Prod.ext hsent rfl
    obtain ⟨k, hk, hid⟩ := h.send_firstFree hsend
    have hs := h.send_ok hsend
    refine ⟨⟨k, hk, hid⟩, ?_, hs.adds.live, hs.stats, hs.adds.mailboxes⟩
    rw [hid]
    exact (draws.id k).property
  · rintro (he | he)
    · have hsend : f.send now draws failure out resolver = (.error .queueFull, f') := Prod.ext he rfl
      exact h.send_refused hsend nofun
    · have hsend : f.send now draws failure out resolver = (.error .noFreeId, f') := Prod.ext he rfl
      exact h.send_refused hsend nofun
  · intro e he
    have hsend : f.send now draws failure out resolver = (.error (.unreachable e), f') := Prod.ext he rfl
    have hm := h.send_unreachable hsend
    have hkept : f.live.map f.nextGap.registration = f.live :=
      List.map_congr_left (fun r hr => h.registration_nextGap hr) |>.trans (List.map_id _)
    refine ⟨hm.table.live.trans hkept, fun later => ?_⟩
    obtain ⟨hreplies, hlast⟩ := hm.run later
    exact ⟨hreplies, hlast.table.live, hlast.stats, hlast.result?⟩

/-- The first query cannot be sent. The next one goes into the slot that this one was in, under the next serial number and with
the next mailbox. -/
example :
    let query : Octets := #[0, 0, 1, 0, 0, 1, 0, 0, 0, 0, 0, 0, 1, 97, 0, 0, 1, 0, 1]
    let out : Outbound := ⟨query, ⟨⟨[1, 97, 0]⟩, RRType.a, RRClass.internet⟩, .v4 0 0, .relay⟩
    let draws : Draws := ⟨fun _ => ⟨7, by decide⟩, fun _ => false⟩
    let f := start ⟨1000, 1, false⟩ ⟨64, none⟩
    let f' := (f.send 0 draws (some .networkUnreachable) out ⟨.v4 1 53, .udp⟩).2
    (f.send 0 draws (some .networkUnreachable) out ⟨.v4 1 53, .udp⟩).1 = .error (.unreachable .networkUnreachable) ∧
      (f.send 0 draws none out ⟨.v4 1 53, .udp⟩).1 = .ok ⟨⟨⟨0, 0⟩, 7, 0, .v4 1 53⟩, query.setId 7⟩ ∧
      (f'.send 0 draws none out ⟨.v4 1 53, .udp⟩).1 = .ok ⟨⟨⟨0, 1⟩, 7, 1, .v4 1 53⟩, query.setId 7⟩ := by
  decide +kernel

end Forwarder

end DnsRelay
