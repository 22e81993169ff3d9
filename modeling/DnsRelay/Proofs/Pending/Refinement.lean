import DnsRelay.Proofs.Address
import DnsRelay.Proofs.Pending.Live

/-!
# What the operations of a table do to its list

For a table that represents a list: registering appends to the list unless the key is taken or the list is full, looking up
finds by key and then by id, clearing takes out the registration of the token, and purging takes out the expired ones. The
table left represents the list left.
-/

namespace DnsRelay

/-- A query as a table keeps it: with the canonical form of its server. -/
def PendingQuery.kept (q : PendingQuery) : PendingQuery :=
  { q with server := q.server.canonical }

namespace PendingTable

variable {P : Type}

/-! ## Room -/

section Room

variable {t t' : PendingTable P}

/-- Clearing takes out the entry in the slot of the token. -/
theorem remove_of_clear {token : Token} {cleared : (PendingQuery × P) × PendingTable P} (h : t.clear token = some cleared) :
    t.remove token.index = some cleared := by
  unfold clear at h
  split at h
  · split at h
    · exact h
    · cases h
  · cases h

/-- Registering a query leaves the room of a table as it is. -/
theorem capacity_of_register {query : PendingQuery} {payload : P} {token : Token}
    (h : t.register query payload = .ok (token, t')) : t'.capacity = t.capacity := by
  unfold register at h
  dsimp only at h
  split at h
  · cases h
  · split at h
    · cases h
    · cases h
      rfl

/-- So does taking out an entry. -/
theorem capacity_of_remove {i : Nat} {gone : PendingQuery × P} (h : t.remove i = some (gone, t')) :
    t'.capacity = t.capacity := by
  obtain ⟨entry, -, he⟩ := Option.map_eq_some_iff.1 h
  cases he
  rfl

/-- So does clearing. -/
theorem capacity_of_clear {token : Token} {gone : PendingQuery × P} (h : t.clear token = some (gone, t')) :
    t'.capacity = t.capacity :=
  capacity_of_remove (remove_of_clear h)

/-- So does taking out several entries. -/
theorem capacity_removeAll (t : PendingTable P) (slots : List Nat) : (t.removeAll slots).2.capacity = t.capacity := by
  induction slots generalizing t with
  | nil => rfl
  | cons i is ih =>
    rw [removeAll]
    split
    · rename_i gone t' hr
      exact (ih t').trans (capacity_of_remove hr)
    · exact ih t

end Room

namespace Represents

variable {t : PendingTable P} {l : List (Registration P)}

open RepresentsAux

/-! ## Registering -/

/-- Whether a key is taken is what the index by key says. -/
theorem lookup_isSome_iff (h : t.Represents l) (key : UInt16 × Endpoint) :
    (t.byKey.lookup key).isSome = true ↔ ∃ r ∈ l, r.key = key := by
  rw [h.byKey, Option.isSome_map, List.find?_isSome]
  simp

/-- The slot that a new entry is put into is that of no registration in the list. -/
theorem index_ne_insert (h : t.Represents l) (e : PendingEntry P) {r : Registration P} (hr : r ∈ l) :
    r.token.index ≠ (t.entries.insert e).1 := by
  intro he
  have hg := (h.mem_iff r).1 hr
  rw [he, h.lawful.get?_insert_self e] at hg
  cases hg

/-- After a new entry was put into a slot, the slots hold the list and its registration. -/
theorem holds_insert (h : t.Represents l) (new : PendingEntry P) (i : Nat) (e : PendingEntry P) :
    (t.entries.insert new).2.get? i = some e ↔ e.registration i ∈ l ++ [new.registration (t.entries.insert new).1] := by
  rw [h.lawful.get?_insert new i, List.mem_append, List.mem_singleton]
  by_cases hi : i = (t.entries.insert new).1
  · rw [if_pos hi]
    constructor
    · rintro ⟨rfl⟩
      exact Or.inr (by rw [hi])
    · rintro (hm | hm)
      · exact absurd hi (h.index_ne_insert new hm)
      · obtain ⟨q, p, s⟩ := e
        simp only [PendingEntry.registration, Registration.mk.injEq, Token.mk.injEq] at hm
        rw [hm.1.2, hm.2.1, hm.2.2]
  · rw [if_neg hi, h.holds i e]
    constructor
    · exact Or.inl
    · rintro (hm | hm)
      · exact hm
      · exact absurd (congrArg (fun r => r.token.index) hm) hi

/-- With the slot of a registration of another key, the index by key leads to the list and this registration. -/
theorem byKey_append (h : t.Represents l) {r : Registration P} (hr : ∀ x ∈ l, x.key ≠ r.key) (key : UInt16 × Endpoint) :
    ((r.key, r.token.index) :: t.byKey).lookup key = ((l ++ [r]).find? (·.key = key)).map (·.token.index) := by
  rw [List.lookup_cons, List.find?_append, h.byKey]
  by_cases hk : key = r.key
  · subst hk
    have hnone : l.find? (·.key = r.key) = none := by
      rw [List.find?_eq_none]
      intro x hx
      simpa using hr x hx
    simp [hnone]
  · have hb : (key == r.key) = false := by simpa using hk
    have hne : ¬r.key = key := fun he => hk he.symm
    simp [hb, hne]

/-- With the slot of a registration behind those of its id, the index by id leads to the list and this registration. -/
theorem byId_append (h : t.Represents l) (r : Registration P) (id : UInt16) :
    (updateSlots t.byId r.query.id (· ++ [r.token.index])).lookup id =
      listed? (((l ++ [r]).filter (·.query.id = id)).map (·.token.index)) := by
  rw [lookup_updateSlots, List.filter_append, List.map_append]
  by_cases hid : id = r.query.id
  · have hslots := h.slotsOf_eq r.query.id
    rw [slotsOf] at hslots
    simp [hid, hslots]
  · have hne : ¬r.query.id = id := fun he => hid he.symm
    simp [hid, hne, h.byId id]

/-- The table that a registration leaves represents the list with the registration at its end. -/
theorem append (h : t.Represents l) (query : PendingQuery) (payload : P)
    (hcan : query.server.canonical = query.server) (hkey : ∀ r ∈ l, r.key ≠ (query.id, query.server))
    (hlen : l.length < t.capacity) :
    let slot := t.entries.insert ⟨query, payload, t.nextSerial⟩
    Represents
      { capacity := t.capacity
        entries := slot.2
        byKey := ((query.id, query.server), slot.1) :: t.byKey
        byId := updateSlots t.byId query.id (· ++ [slot.1])
        nextSerial := t.nextSerial + 1 }
      (l ++ [⟨⟨slot.1, t.nextSerial⟩, query, payload⟩]) := by
  intro slot
  let r : Registration P := ⟨⟨slot.1, t.nextSerial⟩, query, payload⟩
  constructor
  · exact h.lawful.insert _
  · exact h.holds_insert ⟨query, payload, t.nextSerial⟩
  · have hs := h.lawful.size_insert ⟨query, payload, t.nextSerial⟩
    have hl : t.entries.size = l.length := h.size
    rw [PendingTable.size, List.length_append, List.length_singleton, hs, hl]
  · rw [List.length_append, List.length_singleton]
    exact hlen
  · refine List.pairwise_append.2 ⟨h.sorted, List.pairwise_singleton _ _, ?_⟩
    intro a ha b hb
    rw [List.mem_singleton.1 hb]
    exact h.fresh a ha
  · refine List.forall_mem_append.2 ⟨fun x hx => Nat.lt_succ_of_lt (h.fresh x hx), ?_⟩
    exact List.forall_mem_singleton.2 (Nat.lt_succ_self _)
  · exact List.forall_mem_append.2 ⟨h.canonical, List.forall_mem_singleton.2 hcan⟩
  · refine List.pairwise_append.2 ⟨h.keys, List.pairwise_singleton _ _, ?_⟩
    intro a ha b hb
    rw [List.mem_singleton.1 hb]
    exact hkey a ha
  · exact h.byKey_append (r := r) hkey
  · exact h.byId_append r

/-- What registering a query does: the key may be taken, the table may be full, and otherwise the query is appended under
the next serial number. -/
theorem register_cases (h : t.Represents l) (query : PendingQuery) (payload : P) :
    (t.register query payload = .error .duplicateId ∧ ∃ r ∈ l, r.key = (query.id, query.server.canonical)) ∨
    (t.register query payload = .error .full ∧ (∀ r ∈ l, r.key ≠ (query.id, query.server.canonical)) ∧
      t.capacity ≤ l.length) ∨
    (∃ token t', t.register query payload = .ok (token, t') ∧
      (∀ r ∈ l, r.key ≠ (query.id, query.server.canonical)) ∧ l.length < t.capacity ∧
      token.serial = t.nextSerial ∧ t'.nextSerial = t.nextSerial + 1 ∧ t'.capacity = t.capacity ∧
      t'.Represents (l ++ [⟨token, query.kept, payload⟩])) := by
  have htaken := h.lookup_isSome_iff (query.id, query.server.canonical)
  unfold register
  dsimp only
  split
  · rename_i hs
    exact Or.inl ⟨rfl, htaken.1 hs⟩
  · rename_i hs
    have hkey : ∀ r ∈ l, r.key ≠ (query.id, query.server.canonical) := fun r hr he => hs (htaken.2 ⟨r, hr, he⟩)
    split
    · rename_i hc
      rw [h.size] at hc
      exact Or.inr (Or.inl ⟨rfl, hkey, hc⟩)
    · rename_i hc
      rw [h.size] at hc
      exact Or.inr (Or.inr ⟨_, _, rfl, hkey, by omega, rfl, rfl, rfl,
        h.append query.kept payload (Endpoint.canonical_canonical _) hkey (by omega)⟩)

/-! ## Looking up -/

/-- What is found by the id and the source, and otherwise by the id alone, is in the list. -/
theorem mem_of_claimed {id : UInt16} {source : Endpoint} {r : Registration P}
    (hf : (l.find? (·.key = (id, source.canonical))).or (l.find? (·.query.id = id)) = some r) : r ∈ l := by
  rcases Option.or_eq_some_iff.1 hf with hf | ⟨-, hf⟩
  · exact List.mem_of_find?_eq_some hf
  · exact List.mem_of_find?_eq_some hf

/-- A response belongs to the slot of the registration of its id and source, and otherwise to that of the oldest one of its id. -/
theorem slotFor?_eq (h : t.Represents l) (id : UInt16) (source : Endpoint) :
    t.slotFor? id source =
      ((l.find? (·.key = (id, source.canonical))).or (l.find? (·.query.id = id))).map (·.token.index) := by
  rw [slotFor?, h.byKey, h.slotsOf_eq, List.head?_map, List.head?_filter]
  cases l.find? (·.key = (id, source.canonical)) <;> rfl

/-- Looking up finds the registration of the id and the source, and otherwise the oldest one of the id. -/
theorem lookup_eq (h : t.Represents l) (id : UInt16) (source : Endpoint) :
    t.lookup id source =
      ((l.find? (·.key = (id, source.canonical))).or (l.find? (·.query.id = id))).map fun r => (r.token, r.query) := by
  rw [lookup, h.slotFor?_eq]
  cases hf : (l.find? (·.key = (id, source.canonical))).or (l.find? (·.query.id = id)) with
  | none => rfl
  | some r => simp [(h.mem_iff r).1 (mem_of_claimed hf), Registration.entry]

/-! ## Taking out -/

/-- The registrations that stay when one is taken out are those with another slot. -/
theorem token_ne_iff (h : t.Represents l) {a b : Registration P} (ha : a ∈ l) (hb : b ∈ l) :
    a.token ≠ b.token ↔ a.token.index ≠ b.token.index :=
  not_congr ⟨fun he => by rw [he], fun he => by rw [h.eq_of_index ha hb he]⟩

/-- A registration and those with other tokens are the whole list. -/
theorem cons_filter_perm (h : t.Represents l) {r : Registration P} (hr : r ∈ l) :
    (r :: l.filter (·.token ≠ r.token)).Perm l := by
  have hn : (r :: l.filter (·.token ≠ r.token)).Nodup := by
    refine List.nodup_cons.2 ⟨fun hm => ?_, h.nodup.filter _⟩
    simpa using (List.mem_filter.1 hm).2
  refine (List.perm_ext_iff_of_nodup hn h.nodup).2 fun x => ?_
  rw [List.mem_cons, List.mem_filter]
  constructor
  · rintro (rfl | hx)
    · exact hr
    · exact hx.1
  · intro hx
    by_cases he : x.token = r.token
    · exact Or.inl (h.eq_of_token hx hr he)
    · exact Or.inr ⟨hx, by simpa using he⟩

/-- After the slot of a registration was emptied, the slots hold the list without this registration. -/
theorem holds_erase (h : t.Represents l) {r : Registration P} (hr : r ∈ l) (i : Nat) (e : PendingEntry P) :
    (t.entries.erase r.token.index).get? i = some e ↔ e.registration i ∈ l.filter (·.token ≠ r.token) := by
  rw [Slots.get?_erase, List.mem_filter]
  by_cases hi : i = r.token.index
  · rw [if_pos hi]
    constructor
    · nofun
    · rintro ⟨hm, hne⟩
      exact absurd hi ((h.token_ne_iff hm hr).1 (by simpa using hne))
  · rw [if_neg hi, h.holds i e]
    exact ⟨fun hm => ⟨hm, by simpa using (h.token_ne_iff hm hr).2 hi⟩, fun hm => hm.1⟩

/-- Without the key of a registration, the index by key leads to the list without this registration. -/
theorem byKey_filter (h : t.Represents l) {r : Registration P} (hr : r ∈ l) (key : UInt16 × Endpoint) :
    (t.byKey.filter (·.1 ≠ r.key)).lookup key =
      ((l.filter (·.token ≠ r.token)).find? (·.key = key)).map (·.token.index) := by
  rw [IndexAux.lookup_filter_ne, h.byKey, List.find?_filter]
  by_cases hk : key = r.key
  · rw [if_pos hk, List.find?_eq_none.2]
    · rfl
    · intro x hx
      have htoken : x.key = r.key → x.token = r.token := fun he => by rw [h.eq_of_key hx hr he]
      simpa [hk] using fun hne he => hne (htoken he)
  · rw [if_neg hk, ← List.head?_filter, ← List.head?_filter]
    congr 2
    refine List.filter_congr fun x hx => ?_
    by_cases he : x.key = key
    · have hne : x.token ≠ r.token := fun ht => hk (by rw [← he, h.eq_of_token hx hr ht])
      simp [he, hne]
    · simp [he]

/-- Without the slot of a registration, the index by id leads to the list without this registration. -/
theorem byId_filter (h : t.Represents l) {r : Registration P} (hr : r ∈ l) (id : UInt16) :
    (updateSlots t.byId r.query.id (·.filter (· ≠ r.token.index))).lookup id =
      listed? (((l.filter (·.token ≠ r.token)).filter (·.query.id = id)).map (·.token.index)) := by
  rw [lookup_updateSlots]
  by_cases hid : id = r.query.id
  · have hslots := h.slotsOf_eq r.query.id
    rw [slotsOf] at hslots
    rw [if_pos hid, hslots, hid, List.filter_map, List.filter_filter, List.filter_filter]
    congr 2
    refine List.filter_congr fun x hx => ?_
    simp [h.token_ne_iff hx hr, Bool.and_comm]
  · rw [if_neg hid, h.byId, List.filter_filter]
    congr 2
    refine List.filter_congr fun x hx => ?_
    by_cases he : x.query.id = id
    · have hne : x.token ≠ r.token := fun ht => hid (by rw [← he, h.eq_of_token hx hr ht])
      simp [he, hne]
    · simp [he]

/-- Taking an entry out of its slot and of both indexes takes its registration out of the list. -/
theorem remove (h : t.Represents l) {r : Registration P} (hr : r ∈ l) :
    ∃ t', t.remove r.token.index = some ((r.query, r.payload), t') ∧ t'.nextSerial = t.nextSerial ∧
      t'.capacity = t.capacity ∧ t'.Represents (l.filter (·.token ≠ r.token)) := by
  have hg := (h.mem_iff r).1 hr
  have he : t.remove r.token.index = some ((r.query, r.payload), { t with
      entries := t.entries.erase r.token.index
      byKey := t.byKey.filter (·.1 ≠ r.key)
      byId := updateSlots t.byId r.query.id (·.filter (· ≠ r.token.index)) }) := by
    rw [PendingTable.remove, hg]
    rfl
  refine ⟨_, he, rfl, rfl, ?_⟩
  constructor
  · exact h.lawful.erase _
  · exact h.holds_erase hr
  · have hs := h.lawful.size_erase hg
    have hl : t.entries.size = l.length := h.size
    have hlen := (h.cons_filter_perm hr).length_eq
    rw [List.length_cons] at hlen
    dsimp only [PendingTable.size]
    omega
  · exact Nat.le_trans (List.length_filter_le _ _) h.bounded
  · exact h.sorted.filter _
  · intro x hx
    exact h.fresh x (List.mem_filter.1 hx).1
  · intro x hx
    exact h.canonical x (List.mem_filter.1 hx).1
  · exact h.keys.filter _
  · exact h.byKey_filter hr
  · exact h.byId_filter hr

/-- Clearing the token of a listed registration takes that registration out. -/
theorem clear_mem (h : t.Represents l) {r : Registration P} (hr : r ∈ l) :
    ∃ t', t.clear r.token = some ((r.query, r.payload), t') ∧ t'.nextSerial = t.nextSerial ∧
      t'.capacity = t.capacity ∧ t'.Represents (l.filter (·.token ≠ r.token)) := by
  rw [clear, (h.mem_iff r).1 hr]
  simp only [Registration.entry, if_true]
  exact h.remove hr

/-- Clearing any other token does nothing. -/
theorem clear_not_mem (h : t.Represents l) {token : Token} (ht : ∀ r ∈ l, r.token ≠ token) : t.clear token = none := by
  unfold clear
  split
  · rename_i e he
    split
    · rename_i hs
      obtain ⟨i, n⟩ := token
      dsimp only at hs he
      subst hs
      exact absurd rfl (ht _ ((h.holds i e).1 he))
    · rfl
  · rfl

/-! ## Purging -/

/-- Taking out the slots of several registrations takes out these registrations. -/
theorem removeAll (h : t.Represents l) {gone : List (Registration P)} (hsub : ∀ r ∈ gone, r ∈ l)
    (hnd : (gone.map (·.token)).Nodup) :
    ∃ t', t.removeAll (gone.map (·.token.index)) = (gone.map fun r => (r.query, r.payload), t') ∧
      t'.nextSerial = t.nextSerial ∧ t'.capacity = t.capacity ∧
      t'.Represents (l.filter (·.token ∉ gone.map (·.token))) := by
  induction gone generalizing t l with
  | nil => exact ⟨t, rfl, rfl, rfl, by simpa using h⟩
  | cons r gone ih =>
    rw [List.map_cons, List.nodup_cons] at hnd
    obtain ⟨t₁, he₁, hn₁, hc₁, h₁⟩ := h.remove (hsub r List.mem_cons_self)
    have hsub₁ : ∀ x ∈ gone, x ∈ l.filter (·.token ≠ r.token) := by
      intro x hx
      have hne : x.token ≠ r.token := fun he => hnd.1 (by rw [← he]; exact List.mem_map_of_mem hx)
      exact List.mem_filter.2 ⟨hsub x (List.mem_cons_of_mem _ hx), by simpa using hne⟩
    obtain ⟨t₂, he₂, hn₂, hc₂, h₂⟩ := ih h₁ hsub₁ hnd.2
    refine ⟨t₂, ?_, hn₂.trans hn₁, hc₂.trans hc₁, ?_⟩
    · rw [List.map_cons, PendingTable.removeAll, he₁]
      simp only [he₂, List.map_cons]
    · rw [List.filter_filter] at h₂
      have hf : l.filter (·.token ∉ (r :: gone).map (·.token)) =
          l.filter fun x => decide (x.token ∉ gone.map (·.token)) && decide (x.token ≠ r.token) := by
        refine List.filter_congr fun x _ => ?_
        simp [Bool.and_comm]
      rw [hf]
      exact h₂

/-- Some of the registrations of a table, from the lowest slot on, can be taken out one after another. -/
theorem removeAll_sublist (h : t.Represents l) {gone : List (Registration P)} (hgone : gone.Sublist t.registrations) :
    ∃ t', t.removeAll (gone.map (·.token.index)) = (gone.map fun r => (r.query, r.payload), t') ∧
      t'.nextSerial = t.nextSerial ∧ t'.capacity = t.capacity ∧
      t'.Represents (l.filter (·.token ∉ gone.map (·.token))) := by
  refine h.removeAll (fun r hr => (h.mem_registrations r).1 (hgone.subset hr)) ?_
  refine List.pairwise_map.2 (((registrations_pairwise t).sublist hgone).imp fun hab he => ?_)
  rw [he] at hab
  exact Nat.lt_irrefl _ hab

/-- The slots with an entry of some kind are those of the registrations of this kind. -/
theorem indexesWhere_eq (t : PendingTable P) (p : PendingEntry P → Bool) :
    t.entries.indexesWhere p = (t.registrations.filter fun r => p r.entry).map (·.token.index) := by
  rw [Slots.indexesWhere, registrations, List.filter_filterMap, List.map_filterMap, ← List.filterMap_eq_filter]
  refine List.filterMap_congr fun i _ => ?_
  cases hg : t.entries.get? i with
  | none => simp [Option.guard, hg]
  | some e =>
    have hentry : (e.registration i).entry = e := rfl
    have hindex : (e.registration i).token.index = i := rfl
    cases hp : p e with
    | true => simp [Option.guard, Option.filter_some, hg, hentry, hindex, hp]
    | false => simp [Option.guard, Option.filter_some, hg, hentry, hp]

/-- The slots with an expired query are those of the expired registrations. -/
theorem indexesWhere_expired (t : PendingTable P) (now maxAge : Nat) :
    (t.entries.indexesWhere fun entry => decide (maxAge ≤ now - entry.query.sentAt)) =
      (t.registrations.filter (·.query.expired now maxAge)).map (·.token.index) :=
  indexesWhere_eq t _

/-- A registration has the token of an expired one iff it is expired itself. -/
theorem token_mem_expired_iff (h : t.Represents l) (now maxAge : Nat) {r : Registration P} (hr : r ∈ l) :
    r.token ∈ (t.registrations.filter (·.query.expired now maxAge)).map (·.token) ↔
      r.query.expired now maxAge = true := by
  rw [List.mem_map]
  constructor
  · rintro ⟨x, hx, hxr⟩
    obtain ⟨hx, hexp⟩ := List.mem_filter.1 hx
    rw [← h.eq_of_token ((h.mem_registrations x).1 hx) hr hxr]
    exact hexp
  · intro hexp
    exact ⟨r, List.mem_filter.2 ⟨(h.mem_registrations r).2 hr, hexp⟩, rfl⟩

/-- Purging takes out the expired registrations, from the lowest slot on, and keeps the others. -/
theorem purge (h : t.Represents l) (now maxAge : Nat) :
    ∃ t', t.purge now maxAge =
        ((t.registrations.filter (·.query.expired now maxAge)).map fun r => (r.query, r.payload), t') ∧
      t'.nextSerial = t.nextSerial ∧ t'.capacity = t.capacity ∧
      t'.Represents (l.filter fun r => !r.query.expired now maxAge) := by
  have hgone : (t.registrations.filter (·.query.expired now maxAge)).Sublist t.registrations := List.filter_sublist
  obtain ⟨t', he, hn, hc, hr⟩ := h.removeAll_sublist hgone
  refine ⟨t', ?_, hn, hc, ?_⟩
  · rw [PendingTable.purge, indexesWhere_expired, he]
  · have hf : l.filter (fun r => !r.query.expired now maxAge) =
        l.filter (·.token ∉ (t.registrations.filter (·.query.expired now maxAge)).map (·.token)) := by
      refine List.filter_congr fun x hx => ?_
      have hiff := h.token_mem_expired_iff now maxAge hx
      cases hexp : x.query.expired now maxAge <;> simp [hiff, hexp]
    rw [hf]
    exact hr

end Represents

end PendingTable

end DnsRelay
