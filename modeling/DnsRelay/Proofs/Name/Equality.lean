import Mathlib.Data.List.Forall2
import DnsRelay.Proofs.Name.RoundTrip

/-!
# Names that are the same

Names are compared, and hashed, by all the octets of their wire form without regard to case, the lengths of the labels
included, while only the octets of labels are made small. For valid names all this comes to the same, because no length is a
letter: names are the same iff they have the same labels but for the case of letters (`same_iff_forall₂`), iff they are equal
in small letters (`same_iff_lower`).
-/

namespace DnsRelay

/-- Octets that differ at most in case: they are equal, or the two cases of one letter. -/
def Octet.Alike (a b : UInt8) : Prop :=
  a = b ∨ isLetter a = true ∧ b = flipCase a

/-- Octets differ at most in case iff they have the same small form. -/
theorem Octet.alike_iff (a b : UInt8) : Alike a b ↔ lower a = lower b := by
  constructor
  · rintro (rfl | ⟨hletter, rfl⟩)
    · rfl
    · exact (Name.CaseAux.lower_flipCase a hletter).symm
  · intro h
    by_cases hne : a = b
    · exact Or.inl hne
    · exact Or.inr (flipCase_of_lower h hne)

/-- Runs of octets differ at most in case iff they have the same small form. -/
theorem Octet.forall₂_alike_iff (a b : List UInt8) : List.Forall₂ Alike a b ↔ a.map lower = b.map lower := by
  have halike : Alike = fun x y => lower x = lower y := by
    funext x y
    exact propext (alike_iff x y)
  rw [halike, ← List.forall₂_eq_eq_eq, List.forall₂_map_left_iff, List.forall₂_map_right_iff]

namespace Name

/-! ## Small letters -/

/-- Making octets small one after another makes each of them small. -/
theorem mapOctets_lower (octets : List UInt8) :
    (mapOctets (fun (_ : Unit) b => ((), Octet.lower b)) () octets).2 = octets.map Octet.lower := by
  induction octets with
  | nil => rfl
  | cons b octets ih => rw [mapOctets, List.map_cons, ih]

/-- The same for labels. -/
theorem mapLabels_lower (labels : List (List UInt8)) :
    (mapLabels (fun (_ : Unit) b => ((), Octet.lower b)) () labels).2 = labels.map (List.map Octet.lower) := by
  induction labels with
  | nil => rfl
  | cons l labels ih => rw [mapLabels, List.map_cons, ih, mapOctets_lower]

/-- The lengths in a wire form have no case. -/
theorem map_lower_encodeLabels {labels : List (List UInt8)} (hv : ∀ l ∈ labels, ValidLabel l) :
    (encodeLabels labels).map Octet.lower = encodeLabels (labels.map (List.map Octet.lower)) := by
  induction labels with
  | nil => rfl
  | cons l labels ih =>
    obtain ⟨hl, hv⟩ := List.forall_mem_cons.1 hv
    have hle : l.length ≤ 63 := hl.2
    have hlength := CaseAux.lower_length l.length (by omega)
    simp [encodeLabels_cons, encodeLabel, ih hv, hlength]

/-- A valid name in small letters has the same labels in small letters. -/
theorem lower_wire {n : Name} {labels : List (List UInt8)} (hv : ∀ l ∈ labels, ValidLabel l)
    (hw : n.wire = encodeLabels labels) : n.lower.wire = encodeLabels (labels.map (List.map Octet.lower)) := by
  rw [Name.lower, hw, mapContents_encodeLabels _ _ hv, mapLabels_lower]

/-- The labels of a valid name in small letters. -/
theorem Valid.labels_lower {n : Name} (h : n.Valid) : n.lower.labels = n.labels.map (List.map Octet.lower) := by
  obtain ⟨labels, hv, hw, -⟩ := h
  have hv' := validLabel_mapLabels (fun (_ : Unit) b => ((), Octet.lower b)) () hv
  rw [mapLabels_lower] at hv'
  rw [labels_of_wire hv' (lower_wire hv hw), labels_of_wire hv hw, List.map_append]
  rfl

/-- A valid name in small letters is what the hash of the name is computed from. -/
theorem Valid.wire_lower {n : Name} (h : n.Valid) : n.lower.wire = n.hashInput := by
  obtain ⟨labels, hv, hw, -⟩ := h
  rw [lower_wire hv hw, hashInput, hw, map_lower_encodeLabels hv]

/-! ## The same name -/

/-- Names are the same iff their hashes are computed from the same octets. -/
theorem same_iff_hashInput (a b : Name) : a.same b = true ↔ a.hashInput = b.hashInput :=
  sameIgnoringCase_iff a.wire b.wire

section Same

variable {a b : Name} (ha : a.Valid) (hb : b.Valid)
include ha hb

/-- Valid names are the same iff they are equal in small letters. -/
theorem same_iff_lower : a.same b = true ↔ a.lower = b.lower := by
  rw [same_iff_hashInput, ← ha.wire_lower, ← hb.wire_lower]
  constructor
  · exact congrArg Name.mk
  · exact congrArg Name.wire

/-- Valid names are the same iff they have the same labels but for the case of letters. -/
theorem same_iff_forall₂ : a.same b = true ↔ List.Forall₂ (List.Forall₂ Octet.Alike) a.labels b.labels := by
  have halike : List.Forall₂ Octet.Alike = fun x y => x.map Octet.lower = y.map Octet.lower := by
    funext x y
    exact propext (Octet.forall₂_alike_iff x y)
  rw [same_iff_lower ha hb, halike, ← List.forall₂_map_right_iff, ← List.forall₂_map_left_iff, List.forall₂_eq_eq_eq,
    ← ha.labels_lower, ← hb.labels_lower]
  constructor
  · exact congrArg labels
  · exact (ha.of_same a.same_lower).eq_of_labels (hb.of_same b.same_lower)

/-- Valid names that are the same have labels of the same lengths. -/
theorem lengths_of_same (h : a.same b = true) : a.lengths = b.lengths := by
  have hlabels := (same_iff_forall₂ ha hb).1 h
  rw [lengths, lengths, ← List.forall₂_eq_eq_eq, List.forall₂_map_left_iff, List.forall₂_map_right_iff]
  exact hlabels.imp fun _ _ hl => hl.length_eq

end Same

/-- Names are the same iff their labels are, one by one and but for the case of letters, iff they are equal in small letters,
iff their hashes are computed from the same octets. Names that divide the same octets into other labels are not the same. To
be the same is an equivalence and follows from equality. A name in small letters is the same name, and is not changed by
making it small. -/
theorem same_exact :
    (∀ a b : Name, a.Obtainable → b.Obtainable →
      (a.same b = true ↔ List.Forall₂ (List.Forall₂ Octet.Alike) a.labels b.labels) ∧
      (a.same b = true ↔ a.lower = b.lower) ∧ (a.same b = true ↔ a.hashInput = b.hashInput) ∧
      (a.labels.flatten = b.labels.flatten → a.labels ≠ b.labels → a.same b = false)) ∧
    (Equivalence (fun a b : Name => a.same b = true) ∧ ∀ a b : Name, a = b → a.same b = true) ∧
    ∀ n : Name, n.Obtainable → n.lower.same n = true ∧ n.lower.lower = n.lower := by
  refine ⟨?_, ⟨⟨same_refl, ?_, ?_⟩, ?_⟩, ?_⟩
  · intro a b ha hb
    refine ⟨same_iff_forall₂ ha.valid hb.valid, same_iff_lower ha.valid hb.valid, same_iff_hashInput a b, ?_⟩
    intro hcontents hlabels
    rw [Bool.eq_false_iff]
    intro hsame
    exact hlabels (List.eq_iff_flatten_eq.2 ⟨hcontents, lengths_of_same ha.valid hb.valid hsame⟩)
  · intro a b h
    rwa [same_comm]
  · intro a b c hab hbc
    rwa [same_congr hab]
  · rintro a _ rfl
    exact same_refl a
  · intro n hn
    exact ⟨same_lower n, (same_iff_lower hn.lowered.valid hn.valid).1 (same_lower n)⟩

/-- The octets `abc` as labels of two and of one, in capitals too, and as labels of one and of two. -/
theorem same_exact_divided :
    let a : Name := ⟨[2, 0x61, 0x62, 1, 0x63, 0]⟩
    let b : Name := ⟨[2, 0x41, 0x42, 1, 0x43, 0]⟩
    let c : Name := ⟨[1, 0x61, 2, 0x62, 0x63, 0]⟩
    a.Obtainable ∧ b.Obtainable ∧ c.Obtainable ∧ a.lower = b.lower ∧ a.same b = true ∧ a.same c = false := by
  intro a b c
  have hread : ofString? "ab.c." = .ok a ∧ ofString? "AB.C." = .ok b ∧ ofString? "a.bc." = .ok c := ⟨by cbv, by cbv, by cbv⟩
  have ha : a.Obtainable := .read hread.1
  have hb : b.Obtainable := .read hread.2.1
  have hc : c.Obtainable := .read hread.2.2
  have hlower : a.lower = b.lower := by cbv
  obtain ⟨-, hsame, -⟩ := same_exact.1 a b ha hb
  obtain ⟨-, -, -, hdivided⟩ := same_exact.1 a c ha hc
  exact ⟨ha, hb, hc, hlower, hsame.2 hlower, hdivided (by cbv) (by decide +kernel)⟩

end Name

end DnsRelay
