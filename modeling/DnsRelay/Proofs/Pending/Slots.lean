import Mathlib.Data.List.Perm.Subperm
import DnsRelay.Pending.Table

/-!
# Slots and indexes

Statements about the two containers under the table of pending queries: `Slots`, and the association lists that lead to
slots. The free slots of `Slots.Lawful` slots are the empty ones, each listed once, so that a value is never put over
another one, and the size is the number of values held.
-/

namespace DnsRelay

/-! ## Slots -/

namespace Slots

variable {α : Type}

/-- The slots listed as free are the empty ones, each listed once. -/
structure Lawful (s : Slots α) : Prop where
  nodup : s.free.Nodup
  mem_free : ∀ i, i ∈ s.free ↔ i < s.cells.size ∧ s.get? i = none

/-- No slots are lawful. -/
theorem lawful_empty : (empty : Slots α).Lawful where
  nodup := List.nodup_nil
  mem_free := by
    intro i
    simp [empty]

/-- A slot that holds something is one of the slots. -/
theorem lt_of_get? {s : Slots α} {i : Nat} {x : α} (h : s.get? i = some x) : i < s.cells.size := by
  by_contra hi
  rw [get?, Array.getElem?_eq_none (by omega)] at h
  cases h

/-- Lawful slots list at most all of themselves as free. -/
theorem Lawful.length_free_le {s : Slots α} (h : s.Lawful) : s.free.length ≤ s.cells.size := by
  have hsub : s.free ⊆ List.range s.cells.size := by
    intro i hi
    exact List.mem_range.2 ((h.mem_free i).1 hi).1
  have hle := (List.subperm_of_subset h.nodup hsub).length_le
  rwa [List.length_range] at hle

/-- Lawful slots of which one is taken do not list all of themselves as free. -/
theorem Lawful.length_free_lt {s : Slots α} (h : s.Lawful) {i : Nat} {x : α} (hi : s.get? i = some x) :
    s.free.length < s.cells.size := by
  have hnot : i ∉ s.free := by
    intro hf
    rw [((h.mem_free i).1 hf).2] at hi
    cases hi
  have hsub : i :: s.free ⊆ List.range s.cells.size := by
    intro j hj
    rcases List.mem_cons.1 hj with rfl | hj
    · exact List.mem_range.2 (lt_of_get? hi)
    · exact List.mem_range.2 ((h.mem_free j).1 hj).1
  have hle := (List.subperm_of_subset (List.nodup_cons.2 ⟨hnot, h.nodup⟩) hsub).length_le
  rw [List.length_range, List.length_cons] at hle
  omega

/-- What the slots hold after one of them was overwritten. -/
theorem get?_set (cells : Array (Option α)) (free : List Nat) (i : Nat) (x : Option α) (hi : i < cells.size) (j : Nat) :
    (⟨cells.setIfInBounds i x, free⟩ : Slots α).get? j = if j = i then x else ((cells[j]?).join) := by
  by_cases hj : j = i
  · subst hj
    simp [get?, hi]
  · have hne : ¬i = j := fun h => hj h.symm
    rw [if_neg hj, get?, Array.getElem?_setIfInBounds_ne hne]

/-- The slot that a value is put into was empty. -/
theorem Lawful.get?_insert_self {s : Slots α} (h : s.Lawful) (x : α) : s.get? (s.insert x).1 = none := by
  unfold insert
  split
  · rename_i i free hf
    exact ((h.mem_free i).1 (by rw [hf]; exact List.mem_cons_self)).2
  · simp [get?]

/-- After a value was put into a slot, that slot holds it, and the others hold what they held. -/
theorem Lawful.get?_insert {s : Slots α} (h : s.Lawful) (x : α) (j : Nat) :
    (s.insert x).2.get? j = if j = (s.insert x).1 then some x else s.get? j := by
  unfold insert
  split
  · rename_i i free hf
    have hi := ((h.mem_free i).1 (by rw [hf]; exact List.mem_cons_self)).1
    exact get?_set _ _ _ _ hi j
  · by_cases hj : j = s.cells.size
    · subst hj
      simp [get?]
    · simp only [get?, Array.getElem?_push, if_neg hj]

/-- Putting a value into a slot keeps slots lawful. -/
theorem Lawful.insert {s : Slots α} (h : s.Lawful) (x : α) : (s.insert x).2.Lawful := by
  have hget := h.get?_insert x
  unfold Slots.insert at hget ⊢
  split
  · rename_i i free hf
    simp only [hf] at hget
    have hnd := h.nodup
    rw [hf, List.nodup_cons] at hnd
    refine ⟨hnd.2, fun j => ?_⟩
    have hm := h.mem_free j
    rw [hf, List.mem_cons] at hm
    rw [hget j, Array.size_setIfInBounds]
    by_cases hj : j = i
    · subst hj
      simp [hnd.1]
    · simpa [hj] using hm
  · rename_i hf
    simp only [hf] at hget
    refine ⟨List.nodup_nil, fun j => ?_⟩
    have hm := h.mem_free j
    rw [hf] at hm
    rw [hget j, Array.size_push]
    by_cases hj : j = s.cells.size
    · simp [hj]
    · have : j < s.cells.size + 1 ↔ j < s.cells.size := by omega
      simpa [hj, this] using hm

/-- A value put into a slot counts as one more. -/
theorem Lawful.size_insert {s : Slots α} (h : s.Lawful) (x : α) : (s.insert x).2.size = s.size + 1 := by
  have hle := h.length_free_le
  unfold Slots.insert size
  split
  · rename_i i free hf
    rw [hf, List.length_cons] at hle ⊢
    simp only [Array.size_setIfInBounds]
    omega
  · rename_i hf
    simp [hf]

/-- After a slot was emptied it holds nothing, and the others hold what they held. -/
theorem get?_erase (s : Slots α) (i j : Nat) : (s.erase i).get? j = if j = i then none else s.get? j := by
  unfold erase
  split
  · rename_i x hx
    exact get?_set _ _ _ _ (lt_of_get? hx) j
  · rename_i hx
    by_cases hj : j = i
    · rw [if_pos hj, hj, hx]
    · rw [if_neg hj]

/-- Emptying a slot keeps slots lawful. -/
theorem Lawful.erase {s : Slots α} (h : s.Lawful) (i : Nat) : (s.erase i).Lawful := by
  have hget := get?_erase s i
  unfold Slots.erase at hget ⊢
  split
  · rename_i x hx
    simp only [hx] at hget
    have hi : i ∉ s.free := by
      intro hf
      rw [((h.mem_free i).1 hf).2] at hx
      cases hx
    refine ⟨List.nodup_cons.2 ⟨hi, h.nodup⟩, fun j => ?_⟩
    rw [hget j, List.mem_cons, Array.size_setIfInBounds, h.mem_free j]
    by_cases hj : j = i
    · simp [hj, lt_of_get? hx]
    · simp [hj]
  · exact h

/-- Emptying a slot that held a value counts as one less. -/
theorem Lawful.size_erase {s : Slots α} (h : s.Lawful) {i : Nat} {x : α} (hi : s.get? i = some x) :
    (s.erase i).size + 1 = s.size := by
  have hlt := h.length_free_lt hi
  unfold Slots.erase size
  rw [hi]
  simp only [Array.size_setIfInBounds, List.length_cons]
  omega

end Slots

/-! ## Indexes -/

namespace IndexAux

variable {κ β : Type}

/-- What an index says after the records of one key were taken out. -/
theorem lookup_filter_ne [BEq κ] [LawfulBEq κ] [DecidableEq κ] (index : List (κ × β)) (key k : κ) :
    (index.filter (·.1 ≠ key)).lookup k = if k = key then none else index.lookup k := by
  induction index with
  | nil => simp
  | cons x xs ih =>
    by_cases hx : x.1 = key
    · rw [List.filter_cons_of_neg (by simp [hx]), ih]
      by_cases hk : k = key
      · rw [if_pos hk, if_pos hk]
      · have : (k == x.1) = false := by simp [hx, hk]
        rw [if_neg hk, if_neg hk, List.lookup_cons, this]
    · rw [List.filter_cons_of_pos (by simp [hx]), List.lookup_cons, List.lookup_cons, ih]
      by_cases hk : k = x.1
      · have : k ≠ key := fun h => hx (hk.symm.trans h)
        simp [hk, hx]
      · have : (k == x.1) = false := by simp [hk]
        simp [this]

variable {index : List (κ × β)}

/-- In an index without two records of one key, the records are what looking up gives. -/
theorem mem_iff_lookup [BEq κ] [LawfulBEq κ] (h : (index.map (·.1)).Nodup) (k : κ) (v : β) :
    (k, v) ∈ index ↔ index.lookup k = some v := by
  induction index with
  | nil => simp
  | cons x xs ih =>
    obtain ⟨k', v'⟩ := x
    rw [List.map_cons, List.nodup_cons] at h
    rw [List.mem_cons, List.lookup_cons]
    by_cases hk : k = k'
    · subst hk
      have hnot : (k, v) ∉ xs := fun hm => h.1 (List.mem_map_of_mem (f := (·.1)) hm)
      simp [hnot, eq_comm]
    · have hb : (k == k') = false := by simpa using hk
      simp [hb, hk, ih h.2]

/-- Taking records out of an index leaves no two of one key. -/
theorem nodup_filter (h : (index.map (·.1)).Nodup) (p : κ × β → Bool) : ((index.filter p).map (·.1)).Nodup :=
  (List.filter_sublist.map _).nodup h

/-- Putting a record of another key in front leaves no two of one key. -/
theorem nodup_cons (h : (index.map (·.1)).Nodup) {k : κ} (hk : ∀ x ∈ index, x.1 ≠ k) (v : β) :
    (((k, v) :: index).map (·.1)).Nodup := by
  rw [List.map_cons, List.nodup_cons]
  refine ⟨fun hm => ?_, h⟩
  obtain ⟨x, hx, he⟩ := List.mem_map.1 hm
  exact hk x hx he

end IndexAux

namespace PendingTable

open IndexAux

/-- The slots of an id as the index by id lists them: an id without slots is left out. -/
def listed? : List Nat → Option (List Nat)
  | [] => none
  | slots => some slots

/-- The slots of an id that is left out are none. -/
theorem getD_listed? (slots : List Nat) : (listed? slots).getD [] = slots := by
  cases slots <;> rfl

/-- An id has the slots that are listed for it, if any. -/
theorem listed?_eq_some_iff (slots listed : List Nat) : listed? slots = some listed ↔ listed ≠ [] ∧ listed = slots := by
  cases slots with
  | nil => exact ⟨nofun, fun ⟨hne, he⟩ => absurd he hne⟩
  | cons i is =>
    have hsome : listed? (i :: is) = some (i :: is) := rfl
    rw [hsome, Option.some.injEq, eq_comm]
    exact ⟨fun he => ⟨he ▸ List.cons_ne_nil i is, he⟩, fun h => h.2⟩

/-- What the index by id says after the slots of one id were changed. -/
theorem lookup_updateSlots (byId : List (UInt16 × List Nat)) (id : UInt16) (change : List Nat → List Nat) (k : UInt16) :
    (updateSlots byId id change).lookup k =
      if k = id then listed? (change ((byId.lookup id).getD [])) else byId.lookup k := by
  unfold updateSlots
  dsimp only
  split
  · rename_i hc
    rw [lookup_filter_ne, hc]
    rfl
  · rename_i slots hne
    rw [List.lookup_cons, lookup_filter_ne]
    by_cases hk : k = id
    · subst hk
      cases hc : change ((byId.lookup k).getD []) with
      | nil => exact absurd hc hne
      | cons i is => simp [listed?]
    · have : (k == id) = false := by simp [hk]
      simp [this, hk]

/-- After the slots of an id were changed, no id has two records. -/
theorem nodup_updateSlots {byId : List (UInt16 × List Nat)} (h : (byId.map (·.1)).Nodup) (id : UInt16)
    (change : List Nat → List Nat) : ((updateSlots byId id change).map (·.1)).Nodup := by
  have hothers := nodup_filter h (·.1 ≠ id)
  unfold updateSlots
  dsimp only
  split
  · exact hothers
  · refine nodup_cons hothers (fun x hx => ?_) _
    simpa using (List.mem_filter.1 hx).2

end PendingTable

end DnsRelay
