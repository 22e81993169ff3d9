import DnsRelay.Forward.Basic
import DnsRelay.Proofs.Pending.Refinement
import DnsRelay.Proofs.Validation

/-!
# What each operation of a forwarder does

`Forwarder.live` lists the pending queries of a forwarder, the oldest first. In a coherent forwarder each of them has a
mailbox of its own, and these are the mailboxes that still wait. Every operation keeps a forwarder coherent: it adds one
query with a new mailbox (`Adds`), it ends some queries and puts something into their mailboxes (`Ends`), or it changes
nothing but counters. One lemma for each operation says which.
-/

namespace DnsRelay

/-- A response is told to come from where its octets came from. -/
theorem Response.source_of_parse? {octets : Octets} {source : Endpoint} {response : Response}
    (h : parse? octets source = .ok response) : response.source = source := by
  unfold parse? at h
  split at h
  · cases h
  · split at h
    · simp only [bind, Except.bind, pure, Except.pure] at h
      split at h
      · cases h
      · split at h
        · cases h
        · cases h
          rfl
    · cases h

/-- Whether a registration is the one that a token names. -/
def Registration.named {P : Type} (token : Token) (r : Registration P) : Bool :=
  r.token = token

/-- A token names a registration iff it is the token of it. -/
@[simp] theorem Registration.named_eq_true {P : Type} (token : Token) (r : Registration P) :
    r.named token = true ↔ r.token = token :=
  decide_eq_true_iff

namespace Forwarder

/-- The pending queries, the oldest first. -/
def live (f : Forwarder) : List (Registration Nat) :=
  f.table.live

/-- The table is in order, and the waiting mailboxes are those of the pending queries, one for each. -/
structure Coherent (f : Forwarder) : Prop where
  table : f.table.Represents f.live
  waiting : ∀ m, f.mailboxes[m]? = some .waiting ↔ ∃ r ∈ f.live, r.payload = m
  distinct : f.live.Pairwise fun a b => a.payload ≠ b.payload

/-- `f'` is `f` with one more pending query and a new mailbox for it. -/
structure Adds (f : Forwarder) (r : Registration Nat) (f' : Forwarder) : Prop where
  coherent : f'.Coherent
  live : f'.live = f.live ++ [r]
  config : f'.config = f.config
  validator : f'.validator = f.validator
  serial : r.token.serial = f.table.nextSerial
  nextSerial : f'.table.nextSerial = f.table.nextSerial + 1
  payload : r.payload = f.mailboxes.size
  mailboxes : f'.mailboxes = f.mailboxes.push .waiting

/-- A query that was added is pending. -/
theorem Adds.mem {f f' : Forwarder} {r : Registration Nat} (e : f.Adds r f') : r ∈ f'.live := by
  rw [e.live]
  exact List.mem_append_right _ (List.mem_singleton_self r)

/-- `f'` is `f` with the queries that `gone` picks ended and `contents` in their mailboxes. -/
structure Ends (f : Forwarder) (gone : Registration Nat → Bool) (contents : Mailbox) (f' : Forwarder) : Prop where
  coherent : f'.Coherent
  live : f'.live = f.live.filter fun r => !gone r
  config : f'.config = f.config
  validator : f'.validator = f.validator
  nextSerial : f'.table.nextSerial = f.table.nextSerial
  size : f'.mailboxes.size = f.mailboxes.size
  ended : ∀ r ∈ f.live, gone r = true → f'.mailboxes[r.payload]? = some contents
  kept : ∀ m, (∀ r ∈ f.live, gone r = true → r.payload ≠ m) → f'.mailboxes[m]? = f.mailboxes[m]?

/-- A forwarder that has sent nothing has no pending query. -/
theorem live_start (config : ForwardConfig) (validator : Validator) : (start config validator).live = [] :=
  (PendingTable.represents_empty config.maxPending).live_eq

/-- A forwarder that has sent nothing is coherent. -/
theorem coherent_start (config : ForwardConfig) (validator : Validator) : (start config validator).Coherent where
  table := by
    rw [live_start]
    exact PendingTable.represents_empty config.maxPending
  waiting := by
    intro m
    rw [live_start]
    simp [start]
  distinct := by
    rw [live_start]
    exact List.Pairwise.nil

namespace Coherent

open PendingTable.RepresentsAux

variable {f f' : Forwarder}

/-- The mailbox of a pending query exists. -/
theorem payload_lt (h : f.Coherent) {r : Registration Nat} (hr : r ∈ f.live) : r.payload < f.mailboxes.size := by
  have hw := (h.waiting r.payload).2 ⟨r, hr, rfl⟩
  exact (Array.getElem?_eq_some_iff.1 hw).1

/-- A mailbox belongs to at most one pending query. -/
theorem eq_of_payload (h : f.Coherent) {a b : Registration Nat} (ha : a ∈ f.live) (hb : b ∈ f.live)
    (hab : a.payload = b.payload) : a = b :=
  eq_of_pairwise_ne h.distinct ha hb hab

/-- Of the pending queries a token names the one that has it. -/
theorem named_iff (h : f.Coherent) {a b : Registration Nat} (ha : a ∈ f.live) (hb : b ∈ f.live) :
    a.named b.token = true ↔ a = b := by
  rw [Registration.named_eq_true]
  exact ⟨h.table.eq_of_token ha hb, fun he => by rw [he]⟩

/-- Counters do not matter for coherence. -/
theorem withStats (h : f.Coherent) (stats : Stats) : Coherent { f with stats } :=
  ⟨h.table, h.waiting, h.distinct⟩

/-! ## Ending queries -/

/-- What is to be shown of a forwarder that ends queries: which registrations its table keeps, and what is in its
mailboxes. -/
theorem ends (h : f.Coherent) {gone : Registration Nat → Bool} {contents : Mailbox} (hc : contents ≠ .waiting)
    (htable : f'.table.Represents (f.live.filter fun r => !gone r)) (hconfig : f'.config = f.config)
    (hvalidator : f'.validator = f.validator) (hnext : f'.table.nextSerial = f.table.nextSerial)
    (hsize : f'.mailboxes.size = f.mailboxes.size)
    (hended : ∀ r ∈ f.live, gone r = true → f'.mailboxes[r.payload]? = some contents)
    (hkept : ∀ m, (∀ r ∈ f.live, gone r = true → r.payload ≠ m) → f'.mailboxes[m]? = f.mailboxes[m]?) :
    f.Ends gone contents f' := by
  have hlive : f'.live = f.live.filter fun r => !gone r := htable.live_eq
  refine ⟨⟨?_, ?_, ?_⟩, hlive, hconfig, hvalidator, hnext, hsize, hended, hkept⟩
  · rw [hlive]
    exact htable
  · intro m
    rw [hlive]
    by_cases hm : ∃ r ∈ f.live, gone r = true ∧ r.payload = m
    · obtain ⟨r, hr, hg, rfl⟩ := hm
      rw [hended r hr hg]
      constructor
      · rintro ⟨rfl⟩
        exact absurd rfl hc
      · rintro ⟨x, hx, hxr⟩
        obtain ⟨hx, hgx⟩ := List.mem_filter.1 hx
        rw [h.eq_of_payload hx hr hxr, hg] at hgx
        cases hgx
    · rw [hkept m fun r hr hg he => hm ⟨r, hr, hg, he⟩, h.waiting m]
      constructor
      · rintro ⟨r, hr, rfl⟩
        refine ⟨r, List.mem_filter.2 ⟨hr, ?_⟩, rfl⟩
        cases hg : gone r with
        | false => rfl
        | true => exact absurd ⟨r, hr, hg, rfl⟩ hm
      · rintro ⟨r, hr, rfl⟩
        exact ⟨r, (List.mem_filter.1 hr).1, rfl⟩
  · rw [hlive]
    exact h.distinct.filter _

/-- Clearing the token of a pending query and posting into its mailbox ends this query and no other. -/
theorem clear_ends (h : f.Coherent) {r : Registration Nat} (hr : r ∈ f.live) (stats : Stats) (contents : Mailbox)
    (hc : contents ≠ .waiting) :
    ∃ table, f.table.clear r.token = some ((r.query, r.payload), table) ∧
      f.Ends (·.named r.token) contents ({ f with table, stats }.post r.payload contents) := by
  obtain ⟨table, he, hn, -, ht⟩ := h.table.clear_mem hr
  have hlt := h.payload_lt hr
  refine ⟨table, he, h.ends hc ?_ rfl rfl hn (Array.size_setIfInBounds ..) ?_ ?_⟩
  · simpa [Registration.named, post] using ht
  · intro x hx hg
    rw [(h.named_iff hx hr).1 hg]
    simp [post, hlt]
  · intro m hm
    have hne : r.payload ≠ m := hm r hr ((h.named_iff hr hr).2 rfl)
    simp [post, Array.getElem?_setIfInBounds_ne hne]

/-- Giving up the handle of a pending query ends it. -/
theorem cancel_ends (h : f.Coherent) {r : Registration Nat} (hr : r ∈ f.live) {handle : Handle}
    (ht : handle.token = r.token) : f.Ends (·.named r.token) .closed (f.cancel handle) := by
  obtain ⟨table, he, hends⟩ := h.clear_ends hr f.stats .closed nofun
  rw [cancel, ht, he]
  exact hends

/-- Giving up any other handle changes nothing. -/
theorem cancel_eq (h : f.Coherent) {handle : Handle} (ht : ∀ r ∈ f.live, r.token ≠ handle.token) :
    f.cancel handle = f := by
  rw [cancel, h.table.clear_not_mem ht]

/-- The failure of the connection of a pending query ends it. -/
theorem connectionFailed_ends (h : f.Coherent) {r : Registration Nat} (hr : r ∈ f.live) {handle : Handle}
    (ht : handle.token = r.token) (failure : LinkFailure) :
    f.Ends (·.named r.token) (.failed (.unreachable failure)) (f.connectionFailed handle failure) := by
  obtain ⟨table, he, hends⟩ := h.clear_ends hr { f.stats with unreachable := f.stats.unreachable + 1 }
    (.failed (.unreachable failure)) nofun
  rw [connectionFailed, ht, he]
  exact hends

/-- The failure of any other connection changes nothing. -/
theorem connectionFailed_eq (h : f.Coherent) {handle : Handle} (ht : ∀ r ∈ f.live, r.token ≠ handle.token)
    (failure : LinkFailure) : f.connectionFailed handle failure = f := by
  rw [connectionFailed, h.table.clear_not_mem ht]

/-- A pending query that is given up after twice the timeout is ended. -/
theorem expire_ends (h : f.Coherent) {r : Registration Nat} (hr : r ∈ f.live) {handle : Handle}
    (ht : handle.token = r.token) : f.Ends (·.named r.token) .closed (f.expire handle) := by
  obtain ⟨table, he, hends⟩ := h.clear_ends hr { f.stats with timedOut := f.stats.timedOut + 1 } .closed nofun
  rw [expire, ht, he]
  exact hends

/-- Any other query is not ended by that. -/
theorem expire_eq (h : f.Coherent) {handle : Handle} (ht : ∀ r ∈ f.live, r.token ≠ handle.token) :
    f.expire handle = f := by
  rw [expire, h.table.clear_not_mem ht]

end Coherent

/-! ## Sweeping -/

/-- Posting into mailboxes makes no new ones. -/
theorem size_postAll (boxes : Array Mailbox) (gone : List (PendingQuery × Nat)) (contents : Mailbox) :
    (gone.foldl (fun boxes entry => boxes.setIfInBounds entry.2 contents) boxes).size = boxes.size := by
  induction gone generalizing boxes with
  | nil => rfl
  | cons entry gone ih => rw [List.foldl_cons, ih, Array.size_setIfInBounds]

/-- Posting the same contents into several mailboxes fills these and no others. -/
theorem getElem?_postAll (boxes : Array Mailbox) (gone : List (Registration Nat)) (contents : Mailbox) (m : Nat) :
    ((gone.map fun r => (r.query, r.payload)).foldl (fun boxes entry => boxes.setIfInBounds entry.2 contents) boxes)[m]? =
      if m < boxes.size ∧ m ∈ gone.map (·.payload) then some contents else boxes[m]? := by
  induction gone generalizing boxes with
  | nil => simp
  | cons r gone ih =>
    rw [List.map_cons, List.foldl_cons, ih, Array.size_setIfInBounds]
    by_cases hm : m < boxes.size ∧ m ∈ gone.map (·.payload)
    · simp [hm.1, hm.2]
    · rw [if_neg hm]
      by_cases hr : r.payload = m
      · subst hr
        by_cases hs : r.payload < boxes.size
        · simp [hs]
        · simp [hs]
      · have hiff : (m < boxes.size ∧ m ∈ (r :: gone).map (·.payload)) ↔ (m < boxes.size ∧ m ∈ gone.map (·.payload)) := by
          simp [Ne.symm hr]
        rw [if_neg (by rw [hiff]; exact hm), Array.getElem?_setIfInBounds_ne hr]

namespace Coherent

variable {f : Forwarder}

/-- A sweep ends the queries that have waited for the timeout, and counts them. -/
theorem sweep_ends (h : f.Coherent) (now : Nat) :
    f.Ends (·.query.expired now f.config.timeout) .closed (f.sweep now).2 := by
  obtain ⟨table, he, hn, -, ht⟩ := h.table.purge now f.config.timeout
  have hmem : ∀ m, m ∈ (f.table.registrations.filter (·.query.expired now f.config.timeout)).map (·.payload) ↔
      ∃ r ∈ f.live, r.query.expired now f.config.timeout = true ∧ r.payload = m := by
    intro m
    simp only [List.mem_map, List.mem_filter, h.table.mem_registrations]
    exact ⟨fun ⟨r, ⟨hr, hx⟩, he⟩ => ⟨r, hr, hx, he⟩, fun ⟨r, hr, hx, he⟩ => ⟨r, ⟨hr, hx⟩, he⟩⟩
  have hboxes : ∀ m, (f.sweep now).2.mailboxes[m]? =
      if m < f.mailboxes.size ∧ ∃ r ∈ f.live, r.query.expired now f.config.timeout = true ∧ r.payload = m
      then some .closed else f.mailboxes[m]? := by
    intro m
    simp only [sweep, he, getElem?_postAll, hmem]
  refine h.ends nofun ?_ rfl rfl ?_ ?_ ?_ ?_
  · simp only [sweep, he]
    exact ht
  · simp only [sweep, he]
    exact hn
  · simp only [sweep, he]
    exact size_postAll _ _ _
  · intro r hr hx
    rw [hboxes, if_pos ⟨h.payload_lt hr, r, hr, hx, rfl⟩]
  · intro m hm
    rw [hboxes, if_neg fun ⟨_, r, hr, hx, he⟩ => hm r hr hx he]

/-! ## Receiving -/

/-- Octets that are no response change a counter. -/
theorem receive_malformed (f : Forwarder) {octets : Octets} {source : Endpoint} {e : ResponseError}
    (hp : Response.parse? octets source = .error e) :
    f.receive octets source = (.malformed, { f with stats := { f.stats with malformed := f.stats.malformed + 1 } }) := by
  rw [receive, hp]

/-- A response whose id no pending query has changes a counter. -/
theorem receive_unmatched (h : f.Coherent) {octets : Octets} {source : Endpoint} {response : Response}
    (hp : Response.parse? octets source = .ok response) (hid : ∀ r ∈ f.live, r.query.id ≠ response.id) :
    f.receive octets source = (.unmatched, { f with stats := { f.stats with unmatched := f.stats.unmatched + 1 } }) := by
  have hkey : f.live.find? (·.key = (response.id, source.canonical)) = none := by
    rw [List.find?_eq_none]
    intro r hr
    simpa [Registration.key] using fun he => absurd he (hid r hr)
  have hnone : f.live.find? (·.query.id = response.id) = none := by
    rw [List.find?_eq_none]
    intro r hr
    simpa using hid r hr
  simp only [receive, hp, h.table.lookup_eq, hkey, hnone, Option.or_none, Option.map_none]

/-- A response that finds a pending query and is rejected for it changes a counter. -/
theorem receive_dropped (h : f.Coherent) {octets : Octets} {source : Endpoint} {response : Response}
    {r : Registration Nat} {reason : RejectReason} (hp : Response.parse? octets source = .ok response)
    (hfound : (f.live.find? (·.key = (response.id, source.canonical))).or
      (f.live.find? (·.query.id = response.id)) = some r)
    (hv : f.validator.validate response r.query = .error reason) :
    f.receive octets source =
      (.dropped reason, { f with stats := { f.stats with dropped := f.stats.dropped + 1 } }) := by
  simp only [receive, hp, h.table.lookup_eq, hfound, Option.map_some, hv]

/-- A response that finds a pending query and is accepted for it ends the query, with the octets in its mailbox. -/
theorem receive_delivered (h : f.Coherent) {octets : Octets} {source : Endpoint} {response : Response}
    {r : Registration Nat} (hp : Response.parse? octets source = .ok response)
    (hr : r ∈ f.live) (hkey : r.key = (response.id, source.canonical))
    (hv : f.validator.validate response r.query = .ok ()) :
    (f.receive octets source).1 = .delivered ∧
      (f.receive octets source).2.stats = { f.stats with delivered := f.stats.delivered + 1 } ∧
      f.Ends (·.named r.token) (.delivered octets) (f.receive octets source).2 := by
  obtain ⟨table, he, hends⟩ := h.clear_ends hr { f.stats with delivered := f.stats.delivered + 1 }
    (.delivered octets) nofun
  have hfound : f.live.find? (·.key = (response.id, source.canonical)) = some r := by
    rw [← hkey]
    exact h.table.find?_key hr
  have hreceive : f.receive octets source = (.delivered,
      { f with table, stats := { f.stats with delivered := f.stats.delivered + 1 } }.post r.payload
        (.delivered octets)) := by
    simp only [receive, hp, h.table.lookup_eq, hfound, Option.some_or, Option.map_some, hv, he]
  rw [hreceive]
  exact ⟨rfl, rfl, hends⟩

/-- What becomes of a response: no query with its id is pending; only queries to other servers have its id, and the oldest
of these is named; or the query of its id and source fails or passes the checks. -/
theorem receive_cases (h : f.Coherent) {octets : Octets} {source : Endpoint} {response : Response}
    (hp : Response.parse? octets source = .ok response) :
    ((∀ r ∈ f.live, r.query.id ≠ response.id) ∧
      f.receive octets source =
        (.unmatched, { f with stats := { f.stats with unmatched := f.stats.unmatched + 1 } })) ∨
    (∃ r, (∀ x ∈ f.live, x.key ≠ (response.id, source.canonical)) ∧
      f.live.find? (·.query.id = response.id) = some r ∧
      f.receive octets source = (.dropped (.sourceMismatch r.query.server source.canonical),
        { f with stats := { f.stats with dropped := f.stats.dropped + 1 } })) ∨
    (∃ reason, ∃ r ∈ f.live, r.key = (response.id, source.canonical) ∧ f.validator.Fails response r.query reason ∧
      f.receive octets source =
        (.dropped reason, { f with stats := { f.stats with dropped := f.stats.dropped + 1 } })) ∨
    (∃ r ∈ f.live, r.key = (response.id, source.canonical) ∧ f.validator.Passes response r.query ∧
      (f.receive octets source).1 = .delivered ∧
      (f.receive octets source).2.stats = { f.stats with delivered := f.stats.delivered + 1 } ∧
      f.Ends (·.named r.token) (.delivered octets) (f.receive octets source).2) := by
  have hsource := Response.source_of_parse? hp
  by_cases hkey : ∃ r ∈ f.live, r.key = (response.id, source.canonical)
  · obtain ⟨r, hr, hkey⟩ := hkey
    have hid : response.id = r.query.id := (congrArg Prod.fst hkey).symm
    have hserver : r.query.server.canonical = response.source.canonical := by
      rw [hsource, h.table.canonical r hr]
      exact congrArg Prod.snd hkey
    cases hv : f.validator.validate response r.query with
    | error reason =>
      have hfails := (Validator.validate_error_of_matching _ _ _ hid hserver reason).1 hv
      have hfound : f.live.find? (·.key = (response.id, source.canonical)) = some r := by
        rw [← hkey]
        exact h.table.find?_key hr
      exact Or.inr (Or.inr (Or.inl ⟨reason, r, hr, hkey, hfails,
        h.receive_dropped hp (by rw [hfound, Option.some_or]) hv⟩))
    | ok _ =>
      have hpasses := (Validator.validate_ok_of_matching _ _ _ hid hserver).1 hv
      exact Or.inr (Or.inr (Or.inr ⟨r, hr, hkey, hpasses, h.receive_delivered hp hr hkey hv⟩))
  · have hnone : f.live.find? (·.key = (response.id, source.canonical)) = none := by
      rw [List.find?_eq_none]
      intro r hr
      simpa using fun he => hkey ⟨r, hr, he⟩
    cases hf : f.live.find? (·.query.id = response.id) with
    | none =>
      have hid : ∀ r ∈ f.live, r.query.id ≠ response.id := fun r hr => by
        simpa using List.find?_eq_none.1 hf r hr
      exact Or.inl ⟨hid, h.receive_unmatched hp hid⟩
    | some r =>
      have hr := List.mem_of_find?_eq_some hf
      have hid : r.query.id = response.id := by simpa using List.find?_some hf
      have hserver : r.query.server.canonical ≠ response.source.canonical := by
        rw [h.table.canonical r hr, hsource]
        exact fun he => hkey ⟨r, hr, by rw [Registration.key, hid, he]⟩
      have hv := Validator.validate_of_other_source f.validator response r.query hid.symm hserver
      rw [h.table.canonical r hr, hsource] at hv
      exact Or.inr (Or.inl ⟨r, fun x hx he => hkey ⟨x, hx, he⟩, rfl,
        h.receive_dropped hp (by rw [hnone, hf, Option.none_or]) hv⟩)

end Coherent

/-! ## Sending -/

/-- The query that is registered when a message is sent to a server under an id. -/
def queryFor (f : Forwarder) (now : Nat) (draws : Draws) (out : Outbound) (server : Endpoint) (id : UInt16) :
    PendingQuery :=
  ⟨id, (randomizeCase f.config.caseRandomization draws.flip out).2, out.client, server.canonical, now, out.kind⟩

/-- `f'` is `f` after a message was sent to a server, and `sent` is what was sent. -/
structure Sends (f : Forwarder) (now : Nat) (draws : Draws) (out : Outbound) (server : Endpoint) (sent : Sent)
    (f' : Forwarder) : Prop where
  adds : f.Adds ⟨sent.handle.token, f.queryFor now draws out server sent.handle.id, sent.handle.mailbox⟩ f'
  drawn : ∃ k < maxIdAttempts, sent.handle.id = (draws.id k).val
  free : ∀ r ∈ f.live, r.key ≠ (sent.handle.id, server.canonical)
  server : sent.handle.server = server.canonical
  octets : sent.octets = (randomizeCase f.config.caseRandomization draws.flip out).1.setId sent.handle.id
  stats : f'.stats = f.stats

/-- A query that is registered goes by one of the ids tried. -/
theorem registerFresh_ok {f : Forwarder} {query : UInt16 → PendingQuery} {id : Nat → TransactionId}
    {attempts next : Nat} {token : Token} {used : UInt16} {table : PendingTable Nat}
    (h : f.registerFresh query id attempts next = .ok (token, used, table)) :
    ∃ k, next ≤ k ∧ k < next + attempts ∧ used = (id k).val ∧
      f.table.register (query used) f.mailboxes.size = .ok (token, table) := by
  induction attempts generalizing next with
  | zero => cases h
  | succ attempts ih =>
    rw [registerFresh] at h
    split at h
    · rename_i hreg
      cases h
      exact ⟨next, Nat.le_refl _, by omega, rfl, hreg⟩
    · obtain ⟨k, hle, hlt, hk⟩ := ih h
      exact ⟨k, by omega, by omega, hk⟩
    · cases h

namespace Coherent

variable {f : Forwarder}

/-- What is to be shown of a forwarder that adds a query: which registrations its table keeps, and what its mailboxes
are. -/
theorem adds (h : f.Coherent) {r : Registration Nat} {f' : Forwarder} (htable : f'.table.Represents (f.live ++ [r]))
    (hconfig : f'.config = f.config) (hvalidator : f'.validator = f.validator)
    (hserial : r.token.serial = f.table.nextSerial) (hnext : f'.table.nextSerial = f.table.nextSerial + 1)
    (hpayload : r.payload = f.mailboxes.size) (hboxes : f'.mailboxes = f.mailboxes.push .waiting) : f.Adds r f' := by
  have hlive : f'.live = f.live ++ [r] := htable.live_eq
  refine ⟨⟨?_, ?_, ?_⟩, hlive, hconfig, hvalidator, hserial, hnext, hpayload, hboxes⟩
  · rw [hlive]
    exact htable
  · intro m
    rw [hlive, hboxes, Array.getElem?_push]
    by_cases hm : m = f.mailboxes.size
    · simp [hm, hpayload]
    · have hne : r.payload ≠ m := fun he => hm (by rw [← he, hpayload])
      simp [hm, hne, h.waiting m]
  · rw [hlive]
    refine List.pairwise_append.2 ⟨h.distinct, List.pairwise_singleton _ _, ?_⟩
    intro a ha b hb
    have hlt := h.payload_lt ha
    rw [List.mem_singleton.1 hb, hpayload]
    exact Nat.ne_of_lt hlt

/-- A query that could be prepared is pending, with a new mailbox. -/
theorem prepare_ok (h : f.Coherent) {now : Nat} {draws : Draws} {out : Outbound} {server : Endpoint} {sent : Sent}
    {f' : Forwarder} (hp : f.prepare now draws out server = .ok (sent, f')) :
    f.Sends now draws out server sent f' := by
  unfold prepare at hp
  simp only [bind, Except.bind, pure, Except.pure] at hp
  split at hp
  · cases hp
  · rename_i found hreg
    obtain ⟨token, id, table⟩ := found
    obtain ⟨rfl, rfl⟩ := hp
    obtain ⟨k, -, hk, hid, hreg⟩ := registerFresh_ok hreg
    rcases h.table.register_cases (f.queryFor now draws out server id) f.mailboxes.size with
      ⟨he, -⟩ | ⟨he, -, -⟩ | ⟨token', table', he, hkey, -, hserial, hnext, -, ht⟩
    · rw [queryFor] at he
      rw [he] at hreg
      cases hreg
    · rw [queryFor] at he
      rw [he] at hreg
      cases hreg
    · rw [queryFor] at he
      rw [he] at hreg
      cases hreg
      have hkept : (f.queryFor now draws out server id).kept = f.queryFor now draws out server id := by
        simp only [PendingQuery.kept, queryFor, Endpoint.canonical_canonical]
      rw [hkept] at ht
      refine ⟨h.adds ht rfl rfl hserial hnext rfl rfl, ⟨k, by omega, hid⟩, ?_, rfl, rfl, rfl⟩
      intro r hr
      have := hkey r hr
      simpa only [queryFor, Endpoint.canonical_canonical] using this

/-- What sending does: nothing may be registered; the message may be sent, with one more query pending; or it could be
registered but not sent, and what is left of it is a closed mailbox. -/
theorem send_cases (h : f.Coherent) (now : Nat) (draws : Draws) (failure : Option LinkFailure) (out : Outbound)
    (resolver : Resolver) :
    (∃ e, f.send now draws failure out resolver = (.error e, f)) ∨
    (∃ sent f', f.send now draws failure out resolver = (.ok sent, f') ∧
      f.Sends now draws out resolver.endpoint sent f') ∨
    (∃ e f₁ f', f.send now draws failure out resolver = (.error (.unreachable e), f') ∧ ∃ sent,
      f.Sends now draws out resolver.endpoint sent f₁ ∧
      f₁.countUnreachable.Ends (·.named sent.handle.token) .closed f') := by
  unfold send
  split
  · exact Or.inl ⟨_, rfl⟩
  · rename_i sent f₁ hp
    have hs := h.prepare_ok hp
    split
    · rename_i e _
      have hr : (⟨sent.handle.token, f.queryFor now draws out resolver.endpoint sent.handle.id, sent.handle.mailbox⟩ :
          Registration Nat) ∈ f₁.countUnreachable.live := hs.adds.mem
      have hc : f₁.countUnreachable.Coherent := hs.adds.coherent.withStats _
      exact Or.inr (Or.inr ⟨e, f₁, _, rfl, sent, hs, hc.cancel_ends hr rfl⟩)
    · exact Or.inr (Or.inl ⟨sent, f₁, rfl, hs⟩)

/-- A message that was sent is pending behind that. -/
theorem send_ok (h : f.Coherent) {now : Nat} {draws : Draws} {failure : Option LinkFailure} {out : Outbound}
    {resolver : Resolver} {sent : Sent} {f' : Forwarder} (hs : f.send now draws failure out resolver = (.ok sent, f')) :
    f.Sends now draws out resolver.endpoint sent f' := by
  rcases h.send_cases now draws failure out resolver with ⟨e, he⟩ | ⟨sent', f₁, he, hsends⟩ | ⟨e, f₁, f₂, he, -⟩
  · rw [he] at hs
    cases hs
  · rw [he] at hs
    cases hs
    exact hsends
  · rw [he] at hs
    cases hs

end Coherent

end Forwarder

end DnsRelay
