import Mathlib.Data.List.Basic
import DnsRelay.Octets

/-!
# Slices and single octets

What `Octets.slice?` cuts out of a message, octet by octet and part by part, which octets a number is read from, and how a
statement about every octet is decided.
-/

namespace DnsRelay

/-- What holds of the octets in front of a bound holds of every octet that is less. -/
theorem Octet.forall_lt_of_lt {bound : Nat} {P : UInt8 → Prop} (h : ∀ n < bound, P (UInt8.ofNat n)) (b : UInt8)
    (hb : b.toNat < bound) : P b := by
  have hP := h b.toNat hb
  rwa [UInt8.ofNat_toNat] at hP

/-- What holds of the octets up to 255 holds of every octet. -/
theorem Octet.forall_of_lt {P : UInt8 → Prop} (h : ∀ n < 256, P (UInt8.ofNat n)) (b : UInt8) : P b :=
  forall_lt_of_lt h b b.toNat_lt

namespace Octets

/-- A run of octets, its first octet apart. -/
theorem extract_cons {octets : Octets} {index : Nat} {b : UInt8} (hb : octets[index]? = some b) (n : Nat) :
    (octets.extract index (index + n + 1)).toList = b :: (octets.extract (index + 1) (index + 1 + n)).toList := by
  have hb' : octets.toList[index]? = some b := by rw [Array.getElem?_toList, hb]
  have h1 : index + n + 1 - index = n + 1 := by omega
  have h2 : index + 1 + n - (index + 1) = n := by omega
  rw [Array.toList_extract, Array.toList_extract, List.extract_eq_take_drop, List.extract_eq_take_drop, h1, h2,
    List.drop_eq_getElem?_toList_append, hb']
  rfl

/-- A slice of a message is what stands there. -/
theorem slice?_eq_some_iff (octets : Octets) (start length : Nat) (l : List UInt8) :
    octets.slice? start length = some l ↔
      start + length ≤ octets.size ∧ (octets.extract start (start + length)).toList = l := by
  unfold Octets.slice?
  split
  · rename_i h
    simp [h]
  · rename_i h
    simp [h]

/-- A slice has the length asked for. -/
theorem length_of_slice? {octets : Octets} {start length : Nat} {l : List UInt8}
    (h : octets.slice? start length = some l) : l.length = length := by
  obtain ⟨hle, rfl⟩ := (slice?_eq_some_iff octets start length l).1 h
  rw [Array.length_toList, Array.size_extract]
  omega

/-- A number of two octets is there iff both of them are. -/
theorem u16At?_eq_some_iff (octets : Octets) (start : Nat) (n : UInt16) :
    octets.u16At? start = some n ↔ ∃ hi lo, octets[start]? = some hi ∧ octets[start + 1]? = some lo ∧ u16 hi lo = n := by
  rw [u16At?]
  cases octets[start]? <;> cases octets[start + 1]? <;> simp

/-- A number of four octets is there iff all of them are. -/
theorem u32At?_eq_some_iff (octets : Octets) (start : Nat) (n : UInt32) :
    octets.u32At? start = some n ↔ ∃ a b c d, octets[start]? = some a ∧ octets[start + 1]? = some b ∧
      octets[start + 2]? = some c ∧ octets[start + 3]? = some d ∧ u32 a b c d = n := by
  rw [u32At?]
  cases octets[start]? <;> cases octets[start + 1]? <;> cases octets[start + 2]? <;> cases octets[start + 3]? <;> simp

/-- A slice that is not empty is there iff each of its octets is. -/
theorem slice?_eq_some_iff_getElem? (octets : Octets) (start : Nat) {l : List UInt8} (hl : l ≠ []) :
    octets.slice? start l.length = some l ↔ ∀ k < l.length, octets[start + k]? = l[k]? := by
  have hpos := List.length_pos_iff.2 hl
  rw [slice?_eq_some_iff]
  constructor
  · rintro ⟨hle, he⟩ k hk
    have hget : (octets.extract start (start + l.length)).toList[k]? = l[k]? := by rw [he]
    rw [Array.getElem?_toList, Array.getElem?_extract, if_pos (by omega)] at hget
    exact hget
  · intro h
    have hlast := h (l.length - 1) (by omega)
    rw [List.getElem?_eq_getElem (by omega)] at hlast
    have hlt := (Array.getElem?_eq_some_iff.1 hlast).1
    refine ⟨by omega, List.ext_getElem? fun k => ?_⟩
    rw [Array.getElem?_toList, Array.getElem?_extract]
    by_cases hk : k < l.length
    · rw [if_pos (by omega), h k hk]
    · rw [if_neg (by omega), List.getElem?_eq_none (by omega)]

/-- A slice of two parts is two slices. -/
theorem slice?_append (octets : Octets) (start : Nat) (a b : List UInt8) :
    octets.slice? start (a ++ b).length = some (a ++ b) ↔
      octets.slice? start a.length = some a ∧ octets.slice? (start + a.length) b.length = some b := by
  rw [slice?_eq_some_iff, slice?_eq_some_iff, slice?_eq_some_iff, List.length_append, ← Nat.add_assoc]
  have hcut : start + a.length + b.length ≤ octets.size → (octets.extract start (start + a.length + b.length)).toList =
      (octets.extract start (start + a.length)).toList ++
        (octets.extract (start + a.length) (start + a.length + b.length)).toList := by
    intro hle
    rw [← Array.toList_append, Array.extract_append_extract, Nat.min_eq_left (by omega), Nat.max_eq_right (by omega)]
  constructor
  · rintro ⟨hle, h⟩
    rw [hcut hle] at h
    have hlen : (octets.extract start (start + a.length)).toList.length = a.length := by
      rw [Array.length_toList, Array.size_extract]
      omega
    obtain ⟨ha, hb⟩ := List.append_inj h hlen
    exact ⟨⟨by omega, ha⟩, hle, hb⟩
  · rintro ⟨⟨-, ha⟩, hle, hb⟩
    exact ⟨hle, by rw [hcut hle, ha, hb]⟩

/-- A part of a message is the slice of its length behind what stands in front of it. -/
theorem slice?_of_toList {octets : Octets} {a b c : List UInt8} (h : octets.toList = a ++ b ++ c) :
    octets.slice? a.length b.length = some b := by
  have hsize : octets.size = a.length + b.length + c.length := by
    rw [← Array.length_toList, h, List.length_append, List.length_append]
  refine (slice?_eq_some_iff _ _ _ _).2 ⟨by omega, ?_⟩
  rw [Array.toList_extract, h, List.extract_eq_take_drop, Nat.add_sub_cancel_left, List.append_assoc, List.drop_left,
    List.take_left]

/-- Writing over a part of a message puts as many other octets in its place. -/
theorem toList_overwrite {octets : Octets} {a b c new : List UInt8} (h : octets.toList = a ++ b ++ c)
    (hlen : new.length = b.length) : (octets.overwrite a.length new).toList = a ++ new ++ c := by
  induction new generalizing octets a b with
  | nil =>
    obtain rfl : b = [] := List.length_eq_zero_iff.1 hlen.symm
    exact h
  | cons x new ih =>
    cases b with
    | nil => cases hlen
    | cons y b =>
      have hset : (octets.setIfInBounds a.length x).toList = (a ++ [x]) ++ b ++ c := by
        simp [Array.toList_setIfInBounds, h]
      have hnext := ih hset (by simpa using hlen)
      rw [List.length_append, List.length_singleton] at hnext
      rw [overwrite, hnext]
      simp

/-- Changing the octet behind a part of a message. -/
theorem toList_modify {octets : Octets} {a c : List UInt8} {b : UInt8} (h : octets.toList = a ++ b :: c) (f : UInt8 → UInt8) :
    (octets.modify a.length f).toList = a ++ f b :: c := by
  rw [Array.toList_modify, h, List.modify_eq_set]
  simp

end Octets

end DnsRelay
