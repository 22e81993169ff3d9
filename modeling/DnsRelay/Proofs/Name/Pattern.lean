import DnsRelay.Proofs.Name.Equality

/-!
# Patterns of cases

A pattern takes one choice for each letter of a name, from left to right, and flips the case of the letter if the choice says
so. The main result, `withCase_exact`, says that patterns change nothing else, and that the patterns of as many choices as a
name has letters are one to one with the names that differ from it at most in case: who cannot see the choices has to guess
every one of them.
-/

namespace DnsRelay

namespace Octet

/-- The other case of a letter is a letter. -/
theorem isLetter_flipCase : ∀ b, isLetter b = true → isLetter (flipCase b) = true :=
  forall_of_lt (by decide +kernel)

/-- A letter flipped twice is the same letter. -/
theorem flipCase_flipCase : ∀ b, flipCase (flipCase b) = b :=
  forall_of_lt (by decide +kernel)

/-- The two cases of a letter differ. -/
theorem flipCase_ne : ∀ b, flipCase b ≠ b :=
  forall_of_lt (by decide +kernel)

end Octet

namespace Name

/-- How many letters the labels of a name have. -/
def letterCount (n : Name) : Nat :=
  n.contents.countP Octet.isLetter

namespace PatternAux

open Octet

section Cons

variable {b : UInt8} (flips : Nat → Bool) (used : Nat) (octets : List UInt8)

/-- A letter takes a choice. -/
theorem mapOctets_letter (hb : isLetter b = true) :
    mapOctets (flipLetter flips) used (b :: octets) =
      ((mapOctets (flipLetter flips) (used + 1) octets).1,
        (if flips used then flipCase b else b) :: (mapOctets (flipLetter flips) (used + 1) octets).2) := by
  simp only [mapOctets, flipLetter, hb, if_true]

/-- Any other octet takes none, and stays. -/
theorem mapOctets_other (hb : isLetter b = false) :
    mapOctets (flipLetter flips) used (b :: octets) =
      ((mapOctets (flipLetter flips) used octets).1, b :: (mapOctets (flipLetter flips) used octets).2) := by
  simp only [mapOctets, flipLetter, hb, Bool.false_eq_true, if_false]

end Cons

/-- Induction over octets, with a number that goes up by one at each letter. -/
@[elab_as_elim]
theorem letter_induction {motive : Nat → List UInt8 → Prop} (nil : ∀ used, motive used [])
    (letter : ∀ used b octets, isLetter b = true → motive (used + 1) octets → motive used (b :: octets))
    (other : ∀ used b octets, isLetter b = false → motive used octets → motive used (b :: octets))
    (used : Nat) (octets : List UInt8) : motive used octets := by
  induction octets generalizing used with
  | nil => exact nil used
  | cons b octets ih =>
    cases hb : isLetter b with
    | true => exact letter used b octets hb (ih (used + 1))
    | false => exact other used b octets hb (ih used)

/-- There is one choice taken per letter. -/
theorem used_eq (flips : Nat → Bool) (used : Nat) (octets : List UInt8) :
    (mapOctets (flipLetter flips) used octets).1 = used + octets.countP isLetter := by
  induction used, octets using letter_induction with
  | nil => rfl
  | letter used b octets hb ih =>
    rw [mapOctets_letter flips used octets hb, ih, List.countP_cons_of_pos hb]
    omega
  | other used b octets hb ih =>
    rw [mapOctets_other flips used octets hb, ih, List.countP_cons_of_neg (by simp [hb])]

/-- The choice that a letter takes has as its number how many letters stand in front of it. -/
theorem getElem?_flipped (flips : Nat → Bool) (used : Nat) (octets : List UInt8) (j : Nat) :
    (mapOctets (flipLetter flips) used octets).2[j]? = octets[j]?.map fun b =>
      if isLetter b && flips (used + (octets.take j).countP isLetter) then flipCase b else b := by
  induction used, octets using letter_induction generalizing j with
  | nil => simp [mapOctets]
  | letter used b octets hb ih =>
    rw [mapOctets_letter flips used octets hb]
    cases j with
    | zero => simp [hb]
    | succ j =>
      have hcount : used + 1 + (octets.take j).countP isLetter = used + ((octets.take j).countP isLetter + 1) := by omega
      simp [ih, hb, hcount]
  | other used b octets hb ih =>
    rw [mapOctets_other flips used octets hb]
    cases j with
    | zero => simp [hb]
    | succ j => simp [ih, hb]

/-- Choices flip the same letters iff they agree about each letter. -/
theorem flipped_eq_iff (f g : Nat → Bool) (used : Nat) (octets : List UInt8) :
    (mapOctets (flipLetter f) used octets).2 = (mapOctets (flipLetter g) used octets).2 ↔
      ∀ i, used ≤ i → i < used + octets.countP isLetter → f i = g i := by
  induction used, octets using letter_induction with
  | nil used =>
    simp only [mapOctets, List.countP_nil, true_iff]
    intro i hle hlt
    omega
  | letter used b octets hb ih =>
    have hfirst : ((if f used then flipCase b else b) = if g used then flipCase b else b) ↔ f used = g used := by
      have hne := flipCase_ne b
      cases f used <;> cases g used <;> simp [hne, hne.symm]
    rw [mapOctets_letter f used octets hb, mapOctets_letter g used octets hb, List.cons.injEq, hfirst, ih,
      List.countP_cons_of_pos hb]
    constructor
    · rintro ⟨hused, hothers⟩ i hle hlt
      rcases Nat.eq_or_lt_of_le hle with rfl | hgt
      · exact hused
      · exact hothers i hgt (by omega)
    · intro h
      exact ⟨h used (Nat.le_refl _) (by omega), fun i hle hlt => h i (by omega) (by omega)⟩
  | other used b octets hb ih =>
    rw [mapOctets_other f used octets hb, mapOctets_other g used octets hb, List.countP_cons_of_neg (by simp [hb]), ← ih]
    simp

/-- The same choices taken once more undo themselves. -/
theorem flipped_twice (flips : Nat → Bool) (used : Nat) (octets : List UInt8) :
    (mapOctets (flipLetter flips) used (mapOctets (flipLetter flips) used octets).2).2 = octets := by
  induction used, octets using letter_induction with
  | nil => rfl
  | letter used b octets hb ih =>
    rw [mapOctets_letter flips used octets hb]
    cases hflip : flips used with
    | true =>
      rw [if_pos rfl, mapOctets_letter flips used _ (isLetter_flipCase b hb), ih, hflip, if_pos rfl, flipCase_flipCase]
    | false =>
      rw [if_neg Bool.false_ne_true, mapOctets_letter flips used _ hb, ih, hflip, if_neg Bool.false_ne_true]
  | other used b octets hb ih =>
    rw [mapOctets_other flips used octets hb, mapOctets_other flips used _ hb, ih]

/-- Whatever differs from octets at most in case can be made of them by some choices. -/
theorem exists_flips {a b : List UInt8} (h : List.Forall₂ Alike a b) (used : Nat) :
    ∃ flips, (mapOctets (flipLetter flips) used a).2 = b := by
  induction h generalizing used with
  | nil => exact ⟨fun _ => false, rfl⟩
  | @cons x y a b hxy _ ih =>
    cases hx : isLetter x with
    | true =>
      obtain ⟨flips, hflips⟩ := ih (used + 1)
      -- the choice for this letter is put in front of those for the others, which do not look at it
      refine ⟨fun i => if i = used then decide (x ≠ y) else flips i, ?_⟩
      have hothers : (mapOctets (flipLetter fun i => if i = used then decide (x ≠ y) else flips i) (used + 1) a).2 = b := by
        rw [← hflips, flipped_eq_iff]
        intro i hle _
        exact if_neg (by omega)
      rw [mapOctets_letter _ _ _ hx, hothers]
      rcases hxy with rfl | ⟨-, rfl⟩
      · simp
      · simp [(flipCase_ne x).symm]
    | false =>
      obtain ⟨flips, hflips⟩ := ih used
      refine ⟨flips, ?_⟩
      rcases hxy with rfl | ⟨hletter, -⟩
      · rw [mapOctets_other _ _ _ hx, hflips]
      · rw [hx] at hletter
        cases hletter

end PatternAux

open PatternAux

section Valid

variable {n : Name} (hn : n.Valid)
include hn

/-- A pattern makes a valid name with labels as long as before, and takes the letters of the labels one after another. -/
theorem Valid.withCase (flips : Nat → Bool) :
    (n.withCase flips).2.Valid ∧ (n.withCase flips).2.lengths = n.lengths ∧
      mapOctets (flipLetter flips) 0 n.contents = ((n.withCase flips).1, (n.withCase flips).2.contents) :=
  hn.mapContents (flipLetter flips) rfl

/-- The name that a pattern makes is the valid one with labels as long as before and with the octets that the pattern makes. -/
theorem Valid.withCase_eq_iff {flips : Nat → Bool} {m : Name} :
    (n.withCase flips).2 = m ↔
      m.Valid ∧ m.lengths = n.lengths ∧ (mapOctets (flipLetter flips) 0 n.contents).2 = m.contents := by
  obtain ⟨hvalid, hlengths, hcontents⟩ := hn.withCase flips
  rw [hcontents]
  constructor
  · rintro rfl
    exact ⟨hvalid, hlengths, rfl⟩
  · rintro ⟨hm, hlengths', hcontents'⟩
    exact hvalid.ext hm (hlengths.trans hlengths'.symm) hcontents'

/-- Patterns make the same name iff they agree about each of its letters. -/
theorem Valid.withCase_inj (f g : Nat → Bool) :
    (n.withCase f).2 = (n.withCase g).2 ↔ ∀ i < n.letterCount, f i = g i := by
  obtain ⟨hvalid, hlengths, hcontents⟩ := hn.withCase g
  have hcontents' : (n.withCase g).2.contents = (mapOctets (flipLetter g) 0 n.contents).2 := by
    rw [hcontents]
  rw [hn.withCase_eq_iff, hcontents', flipped_eq_iff, Nat.zero_add]
  constructor
  · rintro ⟨-, -, h⟩ i hi
    exact h i (Nat.zero_le i) hi
  · intro h
    exact ⟨hvalid, hlengths, fun i _ hi => h i hi⟩

/-- Some pattern makes each name that differs at most in case. -/
theorem Valid.exists_withCase {m : Name} (h : m.same n = true) : ∃ flips, (n.withCase flips).2 = m := by
  have hm : m.Valid := hn.of_same h
  rw [same_comm] at h
  obtain ⟨flips, hflips⟩ := exists_flips (List.rel_flatten ((same_iff_forall₂ hn hm).1 h)) 0
  exact ⟨flips, hn.withCase_eq_iff.2 ⟨hm, (lengths_of_same hn hm h).symm, hflips⟩⟩

/-- The same pattern once more gives the name back. -/
theorem Valid.withCase_twice (flips : Nat → Bool) : ((n.withCase flips).2.withCase flips).2 = n := by
  obtain ⟨hvalid, hlengths, hcontents⟩ := hn.withCase flips
  refine hvalid.withCase_eq_iff.2 ⟨hn, hlengths.symm, ?_⟩
  have htwice := flipped_twice flips 0 n.contents
  rwa [hcontents] at htwice

end Valid

/-- A pattern of cases takes as many choices as the name has letters, flips those letters whose choice says so, from left to
right, and leaves all other octets; the name stays valid, the same, and divided as before. Patterns make equal names iff they
agree about each letter, each name that is the same is made by exactly one, and the same pattern once more gives the name
back. -/
theorem withCase_exact (n : Name) (hn : n.Valid) :
    (∀ flips, (n.withCase flips).1 = n.letterCount ∧ (n.withCase flips).2.Valid ∧ (n.withCase flips).2.same n = true ∧
      (n.withCase flips).2.lengths = n.lengths) ∧
    (∀ flips j, (n.withCase flips).2.contents[j]? = n.contents[j]?.map fun b =>
      if Octet.isLetter b && flips ((n.contents.take j).countP Octet.isLetter) then Octet.flipCase b else b) ∧
    (∀ f g, (n.withCase f).2 = (n.withCase g).2 ↔ ∀ i < n.letterCount, f i = g i) ∧
    (∀ m : Name, m.same n = true → ∃! p : Fin n.letterCount → Bool,
      ∀ flips, (n.withCase flips).2 = m ↔ ∀ i, flips i.val = p i) ∧
    ∀ flips, ((n.withCase flips).2.withCase flips).2 = n := by
  refine ⟨?_, ?_, hn.withCase_inj, ?_, hn.withCase_twice⟩
  · intro flips
    obtain ⟨hvalid, hlengths, hcontents⟩ := hn.withCase flips
    have hused := used_eq flips 0 n.contents
    rw [hcontents, Nat.zero_add] at hused
    exact ⟨hused, hvalid, same_withCase flips n, hlengths⟩
  · intro flips j
    have hplace := getElem?_flipped flips 0 n.contents j
    rwa [(hn.withCase flips).2.2, Nat.zero_add] at hplace
  · intro m hm
    obtain ⟨flips, rfl⟩ := hn.exists_withCase hm
    refine ⟨fun i => flips i.val, ?_, ?_⟩
    · intro flips'
      rw [hn.withCase_inj]
      exact ⟨fun h i => h i.val i.isLt, fun h i hi => h ⟨i, hi⟩⟩
    · intro p hp
      funext i
      exact ((hp flips).1 rfl i).symm

/-- Three letters among octets that are next to letters or beyond ASCII; the choices flip the first and the last one. -/
theorem withCase_exact_neighbours :
    let n : Name := ⟨[4, 0x61, 0x40, 0x5a, 0x7b, 2, 0xe1, 0x4d, 0]⟩
    let m : Name := ⟨[4, 0x41, 0x40, 0x5a, 0x7b, 2, 0xe1, 0x6d, 0]⟩
    let flips : Nat → Bool := fun i => i != 1
    n.Valid ∧ n.letterCount = 3 ∧ n.withCase flips = (3, m) ∧ (m.withCase flips).2 = n ∧
      ∃! p : Fin n.letterCount → Bool, ∀ flips, (n.withCase flips).2 = m ↔ ∀ i, flips i.val = p i := by
  intro n m flips
  have hn : n.Valid :=
    ⟨[[0x61, 0x40, 0x5a, 0x7b], [0xe1, 0x4d]], by simp [ValidLabel, maxLabelLength], rfl, by decide⟩
  have hm : n.withCase flips = (3, m) := by cbv
  obtain ⟨-, -, -, hunique, htwice⟩ := withCase_exact n hn
  have hback := htwice flips
  rw [hm] at hback
  exact ⟨hn, by cbv, hm, hback, hunique m (by cbv)⟩

end Name

end DnsRelay
