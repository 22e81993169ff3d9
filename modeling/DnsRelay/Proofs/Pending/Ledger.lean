import DnsRelay.Proofs.Pending.History

/-!
# A table is a plain list

A ledger keeps the pending queries in one list, in the order of registration, and answers every call by going through that
list. The main result, `table_eq_ledger`, says that a table answers every sequence of calls as a ledger does. A ledger leaves
open which slot a registration gets: that is a parameter, `slots`, by the number of the registration.
-/

namespace DnsRelay

/-- Pending queries in the order of registration, and how many registrations there have been. -/
structure Ledger (P : Type) where
  capacity : Nat
  live : List (Registration P)
  issued : Nat
  deriving DecidableEq, Repr

namespace Ledger

variable {P : Type}

/-- A ledger that holds up to `capacity` pending queries. -/
def empty (capacity : Nat) : Ledger P :=
  ⟨capacity, [], 0⟩

/-- Appends a query under the next number, unless its key is taken or the list is full. -/
def register (slots : Nat → Nat) (l : Ledger P) (query : PendingQuery) (payload : P) : TableAnswer P × Ledger P :=
  if l.live.any (·.key = (query.id, query.server.canonical)) then (.refused .duplicateId, l)
  else if l.live.length = l.capacity then (.refused .full, l)
  else
    let token : Token := ⟨slots l.issued, l.issued⟩
    (.registered token, { l with live := l.live ++ [⟨token, query.kept, payload⟩], issued := l.issued + 1 })

/-- The pending query of an id and a source, and otherwise the oldest one of the id. -/
def lookup (l : Ledger P) (id : UInt16) (source : Endpoint) : Option (Registration P) :=
  (l.live.find? (·.key = (id, source.canonical))).or (l.live.find? (·.query.id = id))

/-- The pending queries that were sent at least `maxAge` before `now`, from the lowest slot on. -/
def expired (l : Ledger P) (now maxAge : Nat) : List (Registration P) :=
  (l.live.filter (·.query.expired now maxAge)).mergeSort fun a b => a.token.index ≤ b.token.index

/-- A ledger answers a call. -/
def answer (slots : Nat → Nat) (l : Ledger P) : TableCall P → TableAnswer P × Ledger P
  | .register query payload => l.register slots query payload
  | .lookup id source => (.found ((l.lookup id source).map fun r => (r.token, r.query)), l)
  | .clear token =>
    (.cleared ((l.live.find? (·.token = token)).map (·.contents)),
      { l with live := l.live.filter (·.token ≠ token) })
  | .purge now maxAge =>
    (.purged ((l.expired now maxAge).map (·.contents)),
      { l with live := l.live.filter fun r => !r.query.expired now maxAge })
  | .size => (.size l.live.length, l)
  | .isEmpty => (.isEmpty l.live.isEmpty, l)

end Ledger

namespace PendingTable

variable {P : Type}

open RepresentsAux

/-- A table and a ledger hold the same pending queries, as many as they may, and have given out the same numbers. -/
structure Follows (t : PendingTable P) (l : Ledger P) : Prop where
  represents : t.Represents l.live
  capacity : t.capacity = l.capacity
  issued : t.nextSerial = l.issued

/-- An empty table and an empty ledger hold nothing. -/
theorem follows_empty (capacity : Nat) : (empty capacity : PendingTable P).Follows (.empty capacity) where
  represents := represents_empty capacity
  capacity := rfl
  issued := rfl

/-! ## One call -/

/-- Some of the registrations of a table, from the lowest slot on, are these registrations of the list, sorted by slot. -/
theorem Represents.filter_registrations {t : PendingTable P} {l : List (Registration P)} (h : t.Represents l)
    (p : Registration P → Bool) :
    t.registrations.filter p = (l.filter p).mergeSort fun a b => a.token.index ≤ b.token.index := by
  have hperm : (t.registrations.filter p).Perm ((l.filter p).mergeSort fun a b => a.token.index ≤ b.token.index) :=
    (h.registrations_perm.filter p).trans (List.mergeSort_perm _ _).symm
  have hslots : t.registrations.Pairwise fun a b => a.token.index < b.token.index := registrations_pairwise t
  refine hperm.eq_of_pairwise ?_ ((hslots.filter p).imp fun hab => decide_eq_true (Nat.le_of_lt hab))
    (List.pairwise_mergeSort ?_ ?_ _)
  · intro a b ha hb hab hba
    simp only [decide_eq_true_eq] at hab hba
    have hne : t.registrations.Pairwise fun a b => a.token.index ≠ b.token.index := hslots.imp Nat.ne_of_lt
    exact eq_of_pairwise_ne hne (List.mem_filter.1 ha).1 (List.mem_filter.1 (hperm.mem_iff.2 hb)).1
      (Nat.le_antisymm hab hba)
  · intro a b c hab hbc
    simp only [decide_eq_true_eq] at hab hbc ⊢
    omega
  · intro a b
    simp only [Bool.or_eq_true, decide_eq_true_eq]
    omega

namespace Follows

variable {t : PendingTable P} {l : Ledger P} {slots : Nat → Nat}

/-- Registering is answered alike, if the slot is the one that the ledger takes for this number. -/
theorem register_eq (h : t.Follows l) (query : PendingQuery) (payload : P)
    (hslots : ∀ token, (t.answer (.register query payload)).1 = .registered token → slots token.serial = token.index) :
    (t.answer (.register query payload)).1 = (l.register slots query payload).1 ∧
      (t.answer (.register query payload)).2.Follows (l.register slots query payload).2 := by
  have hany : l.live.any (·.key = (query.id, query.server.canonical)) = true ↔
      ∃ r ∈ l.live, r.key = (query.id, query.server.canonical) := by simp
  rcases h.represents.register_cases query payload with ⟨he, htaken⟩ | ⟨he, hfree, hfull⟩ |
    ⟨token, t', he, hfree, hroom, hserial, hnext, hcapacity, ht⟩
  · rw [Ledger.register, if_pos (hany.2 htaken), answer, he]
    exact ⟨rfl, h⟩
  · have hlength : l.live.length = l.capacity := by
      have hbounded := h.represents.bounded
      rw [h.capacity] at hfull hbounded
      omega
    rw [Ledger.register, if_neg fun ha => absurd (hany.1 ha) (by simpa using hfree), if_pos hlength, answer, he]
    exact ⟨rfl, h⟩
  · have hlength : l.live.length ≠ l.capacity := by
      rw [h.capacity] at hroom
      omega
    have htoken : (⟨slots l.issued, l.issued⟩ : Token) = token := by
      have hindex := hslots token (by rw [answer, he])
      rw [hserial, h.issued] at hindex
      rw [hindex, ← h.issued, ← hserial]
    rw [Ledger.register, if_neg fun ha => absurd (hany.1 ha) (by simpa using hfree), if_neg hlength, answer, he]
    dsimp only
    rw [htoken]
    exact ⟨rfl, ht, hcapacity.trans h.capacity, by rw [hnext, h.issued]⟩

/-- Clearing is answered alike. -/
theorem clear_eq (h : t.Follows l) (token : Token) :
    (t.answer (.clear token)).1 = (l.answer slots (.clear token)).1 ∧
      (t.answer (.clear token)).2.Follows (l.answer slots (.clear token)).2 := by
  by_cases ht : ∃ r ∈ l.live, r.token = token
  · obtain ⟨r, hr, rfl⟩ := ht
    have hfound : l.live.find? (·.token = r.token) = some r :=
      find?_eq_some hr (by simp) fun x hx he => h.represents.eq_of_token hx hr (by simpa using he)
    obtain ⟨t', he, hnext, hcapacity, hrest⟩ := h.represents.clear_mem hr
    rw [answer, he, Ledger.answer, hfound]
    exact ⟨rfl, hrest, hcapacity.trans h.capacity, hnext.trans h.issued⟩
  · have hnone : ∀ r ∈ l.live, r.token ≠ token := fun r hr he => ht ⟨r, hr, he⟩
    have hfound : l.live.find? (·.token = token) = none := by
      rw [List.find?_eq_none]
      simpa using hnone
    have hrest : l.live.filter (·.token ≠ token) = l.live := by
      rw [List.filter_eq_self]
      simpa using hnone
    rw [answer, h.represents.clear_not_mem hnone, Ledger.answer, hfound, hrest]
    exact ⟨rfl, h⟩

/-- Purging is answered alike. -/
theorem purge_eq (h : t.Follows l) (now maxAge : Nat) :
    (t.answer (.purge now maxAge)).1 = (l.answer slots (.purge now maxAge)).1 ∧
      (t.answer (.purge now maxAge)).2.Follows (l.answer slots (.purge now maxAge)).2 := by
  obtain ⟨t', he, hnext, hcapacity, hrest⟩ := h.represents.purge now maxAge
  rw [h.represents.filter_registrations] at he
  rw [answer, he, Ledger.answer]
  exact ⟨rfl, hrest, hcapacity.trans h.capacity, hnext.trans h.issued⟩

/-- Every call is answered alike. -/
theorem answer_eq (h : t.Follows l) (call : TableCall P)
    (hslots : ∀ token, (t.answer call).1 = .registered token → slots token.serial = token.index) :
    (t.answer call).1 = (l.answer slots call).1 ∧ (t.answer call).2.Follows (l.answer slots call).2 := by
  cases call with
  | register query payload => exact h.register_eq query payload hslots
  | lookup id source =>
    refine ⟨?_, h⟩
    rw [PendingTable.answer, h.represents.lookup_eq]
    rfl
  | clear token => exact h.clear_eq token
  | purge now maxAge => exact h.purge_eq now maxAge
  | size =>
    refine ⟨?_, h⟩
    rw [PendingTable.answer, h.represents.size]
    rfl
  | isEmpty =>
    refine ⟨?_, h⟩
    rw [PendingTable.answer, isEmpty, h.represents.size, Ledger.answer]
    cases l.live <;> rfl

end Follows

/-! ## Many calls -/

variable {t : PendingTable P} {calls : List (TableCall P)}

/-- The number of a registration tells its slot. -/
theorem Represents.exists_slots (h : t.Represents t.live) (calls : List (TableCall P)) :
    ∃ slots : Nat → Nat, ∀ token, .registered token ∈ (transcript answer t calls).1 →
      slots token.serial = token.index := by
  have hslot : ∀ n, ∃ slot, ∀ token, .registered token ∈ (transcript answer t calls).1 → token.serial = n →
      slot = token.index := by
    intro n
    by_cases hn : ∃ token, .registered token ∈ (transcript answer t calls).1 ∧ token.serial = n
    · obtain ⟨token, hm, rfl⟩ := hn
      refine ⟨token.index, fun token' hm' hs => ?_⟩
      obtain ⟨i, hi⟩ := List.getElem?_of_mem hm
      obtain ⟨j, hj⟩ := List.getElem?_of_mem hm'
      rw [h.eq_of_registered hi hj hs.symm, hj] at hi
      cases hi
      rfl
    · exact ⟨0, fun token hm hs => absurd ⟨token, hm, hs⟩ hn⟩
  obtain ⟨slots, hslots⟩ := Classical.skolem.1 hslot
  exact ⟨slots, fun token hm => hslots _ token hm rfl⟩

/-- Several calls are answered alike, and at every moment the table and the ledger hold the same. -/
theorem Follows.transcript_eq {l : Ledger P} {slots : Nat → Nat} (h : t.Follows l)
    (hslots : ∀ token, .registered token ∈ (transcript answer t calls).1 → slots token.serial = token.index) :
    (transcript answer t calls).1 = (transcript (Ledger.answer slots) l calls).1 ∧
      ∀ k, (stateAt answer t calls k).Follows (stateAt (Ledger.answer slots) l calls k) := by
  induction calls generalizing t l with
  | nil => exact ⟨rfl, fun k => by simpa [stateAt, transcript] using h⟩
  | cons call calls ih =>
    rw [transcript_cons] at hslots
    obtain ⟨hfirst, hrest⟩ := h.answer_eq call fun token he => hslots token (he ▸ List.mem_cons_self)
    obtain ⟨hanswers, hstates⟩ := ih hrest fun token hm => hslots token (List.mem_cons_of_mem _ hm)
    rw [transcript_cons, transcript_cons, hfirst, hanswers]
    refine ⟨rfl, fun k => ?_⟩
    cases k with
    | zero => simpa using h
    | succ k => simpa using hstates k

/-- A table is a plain list of pending queries, up to the choice of slots: a ledger gives the same answers and holds the same
queries, of which no two have one slot. Servers are kept in canonical form, which `Endpoint.alike_iff` and
`Endpoint.canonical_ne_mapped` pin down. No two registrations get one token, and a token takes out its own registration as
long as that is pending, and nothing from then on. -/
theorem table_eq_ledger (capacity : Nat) (calls : List (TableCall P)) :
    let answers : List (TableAnswer P) := (transcript answer (empty capacity) calls).1
    let table : Nat → PendingTable P := stateAt answer (empty capacity) calls
    (∃ slots : Nat → Nat, answers = (transcript (Ledger.answer slots) (.empty capacity) calls).1 ∧
      ∀ k, (table k).live = (stateAt (Ledger.answer slots) (.empty capacity) calls k).live ∧
        ((table k).live.map (·.token.index)).Nodup) ∧
    (∀ (i j : Nat) token, answers[i]? = some (.registered token) → answers[j]? = some (.registered token) → i = j) ∧
    (∀ (i j : Nat) query payload token, i < j → calls[i]? = some (.register query payload) →
      answers[i]? = some (.registered token) → calls[j]? = some (.clear token) →
      (⟨token, query.kept, payload⟩ ∈ (table j).live ∧ answers[j]? = some (.cleared (some (query.kept, payload)))) ∨
      (⟨token, query.kept, payload⟩ ∉ (table j).live ∧ answers[j]? = some (.cleared none) ∧ table (j + 1) = table j)) := by
  intro answers table
  have h : (empty capacity : PendingTable P).Represents (empty capacity).live := by
    rw [(represents_empty capacity).live_eq]
    exact represents_empty capacity
  refine ⟨?_, ?_, ?_⟩
  · obtain ⟨slots, hslots⟩ := h.exists_slots calls
    obtain ⟨hanswers, hstates⟩ := (follows_empty capacity).transcript_eq hslots
    refine ⟨slots, hanswers, fun k => ⟨(hstates k).represents.live_eq, ?_⟩⟩
    have hr : (table k).Represents (table k).live := (h.history calls).represents_at k
    exact hr.nodup.map_on fun a ha b hb he => hr.eq_of_index ha hb he
  · intro i j token hi hj
    exact h.eq_of_registered hi hj rfl
  · intro i j query payload token hij hcall hanswer hclear
    obtain ⟨query', payload', hcall', e⟩ := h.adds_of_registered hanswer
    rw [hcall] at hcall'
    cases hcall'
    have hstep : (table (i + 1)).Step (table j) := (h.history calls).step hij
    have hlater : answers[j]? = some ((table j).answer (.clear token)).1 := by
      rw [getElem?_transcript, hclear]
      rfl
    rw [hlater, show table (j + 1) = ((table j).answer (.clear token)).2 from stateAt_succ hclear]
    rcases hstep.clear_cases e.represents e.mem with ⟨hm, he, -⟩ | ⟨hm, he⟩
    · exact Or.inl ⟨hm, by rw [he]; rfl⟩
    · exact Or.inr ⟨hm, by rw [he], by rw [he]⟩

end PendingTable

end DnsRelay
