/-!
# Octets

A message is an array of octets. This module holds what every layer asks of one: big-endian numbers at a place, a run of
octets cut out or overwritten at a place, and letters of ASCII with their two cases.
-/

namespace DnsRelay

/-- The octets of a message, of a datagram or of a buffer. -/
abbrev Octets := Array UInt8

namespace Octets

/-- The number that two octets stand for, the high one first. -/
def u16 (hi lo : UInt8) : UInt16 :=
  UInt16.ofNat (hi.toNat * 256 + lo.toNat)

/-- The two octets of a number, the high one first. -/
def ofU16 (n : UInt16) : List UInt8 :=
  [UInt8.ofNat (n.toNat / 256), UInt8.ofNat (n.toNat % 256)]

/-- The number that four octets stand for, the highest first. -/
def u32 (a b c d : UInt8) : UInt32 :=
  UInt32.ofNat (((a.toNat * 256 + b.toNat) * 256 + c.toNat) * 256 + d.toNat)

/-- The four octets of a number, the highest first. -/
def ofU32 (n : UInt32) : List UInt8 :=
  [UInt8.ofNat (n.toNat / 16777216), UInt8.ofNat (n.toNat / 65536 % 256),
    UInt8.ofNat (n.toNat / 256 % 256), UInt8.ofNat (n.toNat % 256)]

/-- The two-octet number at a place, if both octets are there. -/
def u16At? (octets : Octets) (start : Nat) : Option UInt16 :=
  match octets[start]?, octets[start + 1]? with
  | some hi, some lo => some (u16 hi lo)
  | _, _ => none

/-- The four-octet number at a place, if all four octets are there. -/
def u32At? (octets : Octets) (start : Nat) : Option UInt32 :=
  match octets[start]?, octets[start + 1]?, octets[start + 2]?, octets[start + 3]? with
  | some a, some b, some c, some d => some (u32 a b c d)
  | _, _, _, _ => none

/-- The octets in `start ..< start + length`, if all of them are there. -/
def slice? (octets : Octets) (start length : Nat) : Option (List UInt8) :=
  if start + length ≤ octets.size then some (octets.extract start (start + length)).toList else none

/-- Puts `new` in the place of the octets from `start` on; what would fall past the end is dropped. -/
def overwrite (octets : Octets) (start : Nat) : List UInt8 → Octets
  | [] => octets
  | b :: bs => overwrite (octets.setIfInBounds start b) (start + 1) bs

theorem u16_ofU16 (n : UInt16) :
    u16 (UInt8.ofNat (n.toNat / 256)) (UInt8.ofNat (n.toNat % 256)) = n := by
  have h := n.toNat_lt
  apply UInt16.toNat_inj.mp
  simp only [u16, UInt16.toNat_ofNat', UInt8.toNat_ofNat']
  omega

theorem u32_ofU32 (n : UInt32) :
    u32 (UInt8.ofNat (n.toNat / 16777216)) (UInt8.ofNat (n.toNat / 65536 % 256)) (UInt8.ofNat (n.toNat / 256 % 256))
      (UInt8.ofNat (n.toNat % 256)) = n := by
  have h := n.toNat_lt
  apply UInt32.toNat_inj.mp
  simp only [u32, UInt32.toNat_ofNat', UInt8.toNat_ofNat']
  omega

theorem length_ofU16 (n : UInt16) : (ofU16 n).length = 2 := rfl

theorem length_ofU32 (n : UInt32) : (ofU32 n).length = 4 := rfl

theorem size_overwrite (octets : Octets) (start : Nat) (new : List UInt8) :
    (overwrite octets start new).size = octets.size := by
  induction new generalizing octets start with
  | nil => rfl
  | cons b bs ih => rw [overwrite, ih, Array.size_setIfInBounds]

/-- Overwriting changes the octets in its run and no others. -/
theorem getElem?_overwrite (octets : Octets) (start : Nat) (new : List UInt8) (i : Nat) :
    (overwrite octets start new)[i]? =
      if start ≤ i ∧ i < start + new.length ∧ i < octets.size then new[i - start]? else octets[i]? := by
  induction new generalizing octets start with
  | nil =>
    have h : ¬(start ≤ i ∧ i < start + 0 ∧ i < octets.size) := by omega
    rw [overwrite, List.length_nil, if_neg h]
  | cons b bs ih =>
    rw [overwrite, ih, Array.size_setIfInBounds, List.length_cons]
    by_cases hi : i = start
    · subst hi
      have h : ¬(i + 1 ≤ i ∧ i < i + 1 + bs.length ∧ i < octets.size) := by omega
      by_cases hs : i < octets.size
      · rw [if_neg h]
        simp [hs]
      · simp [hs]
    · have hne : ¬start = i := fun h => hi h.symm
      rw [Array.getElem?_setIfInBounds_ne hne]
      by_cases hle : start + 1 ≤ i
      · have hd : i - start = (i - (start + 1)) + 1 := by omega
        rw [hd, List.getElem?_cons_succ]
        have e : (start + 1 ≤ i ∧ i < start + 1 + bs.length ∧ i < octets.size) ↔
            (start ≤ i ∧ i < start + (bs.length + 1) ∧ i < octets.size) := by omega
        simp only [e]
      · have h1 : ¬(start + 1 ≤ i ∧ i < start + 1 + bs.length ∧ i < octets.size) := by omega
        have h2 : ¬(start ≤ i ∧ i < start + (bs.length + 1) ∧ i < octets.size) := by omega
        simp only [h1, h2, if_false]

end Octets

namespace Octet

/-- A capital letter of ASCII. -/
def isCapital (b : UInt8) : Bool :=
  0x41 ≤ b && b ≤ 0x5a

/-- A letter of ASCII, of either case. -/
def isLetter (b : UInt8) : Bool :=
  isCapital b || (0x61 ≤ b && b ≤ 0x7a)

/-- A capital letter becomes the small one; every other octet stays. -/
def lower (b : UInt8) : UInt8 :=
  if isCapital b then b + 0x20 else b

/-- The other case of a letter. -/
def flipCase (b : UInt8) : UInt8 :=
  b ^^^ 0x20

/-- A decimal digit of ASCII. -/
def isDigit (b : UInt8) : Bool :=
  0x30 ≤ b && b ≤ 0x39

/-- The value of a decimal digit. -/
def digitValue (b : UInt8) : Nat :=
  b.toNat - 0x30

end Octet

/-- Two runs of octets that differ at most in the case of ASCII letters. -/
def sameIgnoringCase : List UInt8 → List UInt8 → Bool
  | [], [] => true
  | a :: as, b :: bs => Octet.lower a == Octet.lower b && sameIgnoringCase as bs
  | _, _ => false

theorem sameIgnoringCase_iff (a b : List UInt8) :
    sameIgnoringCase a b = true ↔ a.map Octet.lower = b.map Octet.lower := by
  induction a generalizing b with
  | nil => cases b <;> simp [sameIgnoringCase]
  | cons x xs ih => cases b <;> simp [sameIgnoringCase, ih]

end DnsRelay
