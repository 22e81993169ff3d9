import Mathlib.Data.List.Flatten
import DnsRelay.Proofs.Name.Case

/-!
# The labels of a valid name

The labels of a valid name are the ones that it is the wire form of, and the null label. They determine the name, and are
themselves determined by their lengths and by their octets one after another (`Valid.ext`). Mapping the octets of the labels
maps these octets and leaves the lengths (`Valid.mapContents`).
-/

namespace DnsRelay.Name

/-- The octets of the labels of a name, one label after another. -/
def contents (n : Name) : List UInt8 :=
  n.labels.flatten

/-- The lengths of the labels of a name. -/
def lengths (n : Name) : List Nat :=
  n.labels.map List.length

/-- The labels of a wire form are those that it was made of, and the null label. -/
theorem labels_of_wire {n : Name} {labels : List (List UInt8)} (hv : ∀ l ∈ labels, ValidLabel l)
    (hw : n.wire = encodeLabels labels) : n.labels = labels ++ [[]] := by
  rw [Name.labels, hw]
  exact splitLabels_encodeLabels labels fun l hl => (hv l hl).2

/-- A valid name is determined by its labels. -/
theorem Valid.eq_of_labels {a b : Name} (ha : a.Valid) (hb : b.Valid) (h : a.labels = b.labels) : a = b := by
  obtain ⟨as, hva, hwa, -⟩ := ha
  obtain ⟨bs, hvb, hwb, -⟩ := hb
  rw [labels_of_wire hva hwa, labels_of_wire hvb hwb, List.append_cancel_right_eq] at h
  rw [Name.mk.injEq, hwa, hwb, h]

/-- A valid name is determined by the lengths of its labels and by their octets. -/
theorem Valid.ext {a b : Name} (ha : a.Valid) (hb : b.Valid) (hlengths : a.lengths = b.lengths)
    (hcontents : a.contents = b.contents) : a = b :=
  ha.eq_of_labels hb (List.eq_iff_flatten_eq.2 ⟨hcontents, hlengths⟩)

/-! ## Mapping the octets of labels -/

/-- Applies `f` to the octets of labels from left to right, one label after another. -/
def mapLabels {σ : Type} (f : σ → UInt8 → σ × UInt8) : σ → List (List UInt8) → σ × List (List UInt8)
  | s, [] => (s, [])
  | s, l :: ls =>
    let first := mapOctets f s l
    let others := mapLabels f first.1 ls
    (others.1, first.2 :: others.2)

section Mapping

variable {σ : Type} (f : σ → UInt8 → σ × UInt8)

/-- Octets are mapped part by part, with the state passed on. -/
theorem mapOctets_append (s : σ) (a b : List UInt8) :
    mapOctets f s (a ++ b) =
      ((mapOctets f (mapOctets f s a).1 b).1, (mapOctets f s a).2 ++ (mapOctets f (mapOctets f s a).1 b).2) := by
  induction a generalizing s with
  | nil => rfl
  | cons x a ih => simp only [List.cons_append, mapOctets, ih]

/-- Mapping labels maps their octets, one label after another. -/
theorem mapOctets_flatten (s : σ) (labels : List (List UInt8)) :
    mapOctets f s labels.flatten = ((mapLabels f s labels).1, (mapLabels f s labels).2.flatten) := by
  induction labels generalizing s with
  | nil => rfl
  | cons l ls ih => simp only [List.flatten_cons, mapOctets_append, mapLabels, ih]

/-- Mapping labels leaves their lengths. -/
theorem map_length_mapLabels (s : σ) (labels : List (List UInt8)) :
    (mapLabels f s labels).2.map List.length = labels.map List.length := by
  induction labels generalizing s with
  | nil => rfl
  | cons l ls ih => simp only [mapLabels, List.map_cons, length_mapOctets, ih]

/-- Labels that are valid stay so. -/
theorem validLabel_mapLabels (s : σ) {labels : List (List UInt8)} (hv : ∀ l ∈ labels, ValidLabel l) :
    ∀ l ∈ (mapLabels f s labels).2, ValidLabel l := by
  have hlengths : ∀ k ∈ labels.map List.length, k ≠ 0 ∧ k ≤ maxLabelLength := by
    simp only [List.mem_map]
    rintro _ ⟨l, hl, rfl⟩
    exact ⟨List.length_eq_zero_iff.not.2 (hv l hl).1, (hv l hl).2⟩
  intro l hl
  rw [← map_length_mapLabels f s labels] at hlengths
  obtain ⟨hne, hle⟩ := hlengths l.length (List.mem_map_of_mem hl)
  exact ⟨List.length_eq_zero_iff.not.1 hne, hle⟩

/-- Mapping the labels of a wire form maps the labels that it was made of. -/
theorem mapContents_encodeLabels (s : σ) {labels : List (List UInt8)} (hv : ∀ l ∈ labels, ValidLabel l) :
    mapContents f s (encodeLabels labels) = ((mapLabels f s labels).1, encodeLabels (mapLabels f s labels).2) := by
  induction labels generalizing s with
  | nil => simp [encodeLabels, mapContents, mapOctets, mapLabels]
  | cons l ls ih =>
    obtain ⟨hl, hv⟩ := List.forall_mem_cons.1 hv
    have hlen := length_mapOctets f s l
    rw [encodeLabels_cons, encodeLabel, List.cons_append, mapContents, CompressedAux.toNat_length hl, List.take_left,
      List.drop_left, ih _ hv]
    simp [mapLabels, encodeLabels_cons, encodeLabel, hlen]

/-- Mapping the octets of the labels of a valid name makes a valid name, whose labels are as long as before; their octets are
mapped one after another. -/
theorem Valid.mapContents {n m : Name} {s t : σ} (hn : n.Valid) (h : mapContents f s n.wire = (t, m.wire)) :
    m.Valid ∧ m.lengths = n.lengths ∧ mapOctets f s n.contents = (t, m.contents) := by
  obtain ⟨labels, hv, hw, hlen⟩ := hn
  have hv' := validLabel_mapLabels f s hv
  have hsize : m.wire.length = n.wire.length := by
    rw [← length_mapContents f s n.wire, h]
  rw [hw, mapContents_encodeLabels f s hv, Prod.mk.injEq] at h
  obtain ⟨rfl, hw'⟩ := h
  refine ⟨⟨_, hv', hw'.symm, hsize ▸ hlen⟩, ?_, ?_⟩
  · rw [lengths, lengths, labels_of_wire hv' hw'.symm, labels_of_wire hv hw]
    simp only [List.map_append, map_length_mapLabels]
  · rw [contents, contents, labels_of_wire hv' hw'.symm, labels_of_wire hv hw]
    simp only [List.flatten_append, List.flatten_cons, List.flatten_nil, List.append_nil, mapOctets_flatten]

end Mapping

end DnsRelay.Name
