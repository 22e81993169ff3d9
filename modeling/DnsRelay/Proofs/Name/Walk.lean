import DnsRelay.Proofs.Name.RoundTrip

/-!
# Walking over the labels of a name

There are two ways to walk over the labels of a name. One takes label after label off the front, the other changes the octets of
the labels where they stand and goes by the length octets, which it leaves. Neither asks whether there are as many octets as a
length octet announces. Here both are written so that a label past the end is an outcome of its own (`cutLabels?`, `visit?`). On a
valid name it does not come about, and both walks go over the labels that the name was made of.
-/

namespace DnsRelay.Name

/-- Takes labels off a wire form one after another: `none` if a length octet announces more octets than there are. -/
def cutLabels? : List UInt8 → Option (List (List UInt8))
  | [] => some []
  | n :: rest =>
    if rest.length < n.toNat then none
    else (cutLabels? (rest.drop n.toNat)).map (rest.take n.toNat :: ·)
termination_by wire => wire.length
decreasing_by
  simp only [List.length_cons, List.length_drop]
  omega

/-- Applies `f` to the octets of the labels from `index` on, where they stand: `none` if a length octet announces more octets than
there are. -/
def visitFrom? {σ : Type} (f : σ → UInt8 → σ × UInt8) (s : σ) (octets : Octets) (index : Nat) : Option (σ × Octets) :=
  match _h : octets[index]? with
  | none => some (s, octets)
  | some length =>
    match octets.slice? (index + 1) length.toNat with
    | none => none
    | some label =>
      let mapped := mapOctets f s label
      visitFrom? f mapped.1 (octets.overwrite (index + 1) mapped.2) (index + length.toNat + 1)
termination_by octets.size - index
decreasing_by
  have hlt := (Array.getElem?_eq_some_iff.1 _h).1
  rw [Octets.size_overwrite]
  omega

/-- Applies `f` to the octets of the labels of a name, where they stand. -/
def visit? {σ : Type} (f : σ → UInt8 → σ × UInt8) (s : σ) (n : Name) : Option (σ × Name) :=
  (visitFrom? f s n.wire.toArray 0).map fun visited => (visited.1, ⟨visited.2.toList⟩)

open CompressedAux

/-! ## Label after label -/

/-- The labels that a wire form was made of are taken off it, and then the null label. -/
theorem cutLabels?_encodeLabels {labels : List (List UInt8)} (hv : ∀ l ∈ labels, ValidLabel l) :
    cutLabels? (encodeLabels labels) = some (labels ++ [[]]) := by
  induction labels with
  | nil => simp [encodeLabels, cutLabels?]
  | cons l ls ih =>
    obtain ⟨hl, hv⟩ := List.forall_mem_cons.1 hv
    have hin : ¬(l ++ encodeLabels ls).length < l.length := by
      rw [List.length_append]
      omega
    rw [encodeLabels_cons, encodeLabel, List.cons_append, cutLabels?, toNat_length hl, if_neg hin, List.take_left, List.drop_left,
      ih hv]
    rfl

/-- A name of valid labels has two octets for each of them at least, and the null label. -/
theorem two_mul_length_lt {labels : List (List UInt8)} (hv : ∀ l ∈ labels, ValidLabel l) :
    2 * labels.length < (encodeLabels labels).length := by
  induction labels with
  | nil => exact Nat.one_pos
  | cons l ls ih =>
    obtain ⟨hl, hv⟩ := List.forall_mem_cons.1 hv
    have hpos := List.length_pos_iff.2 hl.1
    have hls := ih hv
    rw [encodeLabels_cons, encodeLabel, List.length_append, List.length_cons, List.length_cons]
    omega

/-- Of valid labels with the null label behind them, the last one is empty and no other. -/
theorem eq_nil_iff_last {labels : List (List UInt8)} (hv : ∀ l ∈ labels, ValidLabel l) {i : Nat} {l : List UInt8}
    (h : (labels ++ [[]])[i]? = some l) : l = [] ↔ i = labels.length := by
  rcases Nat.lt_or_ge i labels.length with hlt | hge
  · rw [List.getElem?_append_left hlt] at h
    have hne := (hv l (List.mem_of_getElem? h)).1
    exact ⟨fun he => absurd he hne, fun he => absurd he (Nat.ne_of_lt hlt)⟩
  · rw [List.getElem?_append_right hge, List.getElem?_singleton] at h
    split at h
    · cases h
      simp only [true_iff]
      omega
    · cases h

/-! ## Octets where they stand -/

section Visiting

variable {σ : Type} (f : σ → UInt8 → σ × UInt8)

/-- Behind the last label the walk ends. -/
theorem visitFrom?_end (s : σ) (octets : Octets) : visitFrom? f s octets octets.size = some (s, octets) := by
  rw [visitFrom?]
  split
  · rfl
  · rename_i h
    exact absurd (Array.getElem?_eq_some_iff.1 h).1 (Nat.lt_irrefl _)

/-- One label is changed where it stands, and the walk goes on behind it. -/
theorem visitFrom?_label (s : σ) {octets : Octets} {front label behind : List UInt8}
    (hlen : (UInt8.ofNat label.length).toNat = label.length) (h : octets.toList = front ++ encodeLabel label ++ behind) :
    ∃ octets' : Octets, octets'.toList = front ++ encodeLabel (mapOctets f s label).2 ++ behind ∧
      visitFrom? f s octets front.length =
        visitFrom? f (mapOctets f s label).1 octets' (front.length + label.length + 1) := by
  have hfirst : octets[front.length]? = some (UInt8.ofNat label.length) := by
    rw [← Array.getElem?_toList, h, List.append_assoc, List.getElem?_append_right (Nat.le_refl _), Nat.sub_self]
    rfl
  -- what is read and written over is the part behind the length octet, so this octet stays
  have hparts : octets.toList = (front ++ [UInt8.ofNat label.length]) ++ label ++ behind := by
    rw [h, encodeLabel]
    simp only [List.append_assoc, List.cons_append, List.nil_append]
  have hslice := Octets.slice?_of_toList hparts
  have hwritten := Octets.toList_overwrite hparts (length_mapOctets f s label)
  rw [List.length_append, List.length_singleton] at hslice hwritten
  refine ⟨octets.overwrite (front.length + 1) (mapOctets f s label).2, ?_, ?_⟩
  · rw [hwritten, encodeLabel, length_mapOctets]
    simp only [List.append_assoc, List.cons_append, List.nil_append]
  · rw [visitFrom?]
    split
    · rename_i hnone
      rw [hfirst] at hnone
      cases hnone
    · rename_i length hsome
      obtain rfl : UInt8.ofNat label.length = length := Option.some.inj (hfirst.symm.trans hsome)
      simp only [hlen, hslice]

/-- The octets of the labels of a wire form are changed where it stands, whatever is in front of it. -/
theorem visitFrom?_encodeLabels {labels : List (List UInt8)} (hv : ∀ l ∈ labels, ValidLabel l) (s : σ) {octets : Octets}
    {front : List UInt8} (h : octets.toList = front ++ encodeLabels labels) :
    ∃ octets' : Octets, octets'.toList = front ++ encodeLabels (mapLabels f s labels).2 ∧
      visitFrom? f s octets front.length = some ((mapLabels f s labels).1, octets') := by
  induction labels generalizing s octets front with
  | nil =>
    -- the null label is one more step, which changes nothing
    have hnull : octets.toList = front ++ encodeLabel [] ++ [] := by simpa [encodeLabels, encodeLabel] using h
    obtain ⟨octets', hocts, hstep⟩ := visitFrom?_label f s rfl hnull
    have hsize : front.length + 1 = octets'.size := by
      rw [← Array.length_toList, hocts]
      simp [encodeLabel, mapOctets]
    refine ⟨octets', by simpa [encodeLabels, encodeLabel, mapOctets, mapLabels] using hocts, ?_⟩
    rw [hstep, List.length_nil, Nat.add_zero, hsize, visitFrom?_end]
    rfl
  | cons l ls ih =>
    obtain ⟨hl, hv⟩ := List.forall_mem_cons.1 hv
    rw [encodeLabels_cons, ← List.append_assoc] at h
    obtain ⟨octets', hocts, hstep⟩ := visitFrom?_label f s (toNat_length hl) h
    obtain ⟨octets'', hlast, hrest⟩ := ih hv (mapOctets f s l).1 hocts
    refine ⟨octets'', ?_, ?_⟩
    · rw [hlast, mapLabels, encodeLabels_cons, List.append_assoc]
    · have hbehind : (front ++ encodeLabel (mapOctets f s l).2).length = front.length + l.length + 1 := by
        rw [List.length_append, encodeLabel, List.length_cons, length_mapOctets, Nat.add_assoc]
      rw [hbehind] at hrest
      rw [hstep, hrest, mapLabels]

/-- On a valid name the walk that changes octets where they stand does what mapping them does. -/
theorem Valid.visit?_eq {n : Name} (hn : n.Valid) (s : σ) :
    visit? f s n = some ((Name.mapContents f s n.wire).1, ⟨(Name.mapContents f s n.wire).2⟩) := by
  obtain ⟨labels, hv, hw, -⟩ := hn
  have hfront : n.wire.toArray.toList = [] ++ encodeLabels labels := hw
  obtain ⟨octets', hocts, hvisited⟩ := visitFrom?_encodeLabels f hv s hfront
  rw [List.nil_append] at hocts
  rw [visit?, hw, mapContents_encodeLabels f s hv, ← hocts]
  rw [hw] at hvisited
  exact congrArg (Option.map _) hvisited

end Visiting

/-- A name has at most 255 octets on the wire: labels of 1 to 63 octets, each behind its length, and one null octet. Taking
labels off the front never goes past the end, and gives at most 128, of which only the last is empty, and which make up the
wire form. Changing their octets where they stand never does either, and is mapping them, as small letters and flipped cases
do. -/
theorem walk_exact (n : Name) (hn : n.Obtainable) :
    n.wire.length ≤ 255 ∧
    (∃ labels, (∀ l ∈ labels, 1 ≤ l.length ∧ l.length ≤ 63) ∧
      n.wire = (labels.flatMap fun l => UInt8.ofNat l.length :: l) ++ [0] ∧ n.labels = labels ++ [[]]) ∧
    cutLabels? n.wire = some n.labels ∧
    (n.labels.length ≤ 128 ∧ ∀ i l, n.labels[i]? = some l → (l = [] ↔ i + 1 = n.labels.length)) ∧
    (n.labels.flatMap fun l => UInt8.ofNat l.length :: l) = n.wire ∧
    (∀ (σ : Type) (f : σ → UInt8 → σ × UInt8) (s : σ),
      visit? f s n = some ((mapContents f s n.wire).1, ⟨(mapContents f s n.wire).2⟩)) ∧
    visit? (fun (_ : Unit) b => ((), Octet.lower b)) () n = some ((), n.lower) ∧
    ∀ flips, visit? (flipLetter flips) 0 n = some (n.withCase flips) := by
  obtain ⟨labels, hv, hw, hlen⟩ := hn.valid
  have hlabels := labels_of_wire hv hw
  have hshort : 2 * labels.length < 255 := by
    have hlt := two_mul_length_lt hv
    rw [← hw] at hlt
    exact Nat.lt_of_lt_of_le hlt hlen
  have hvisit : ∀ (σ : Type) (f : σ → UInt8 → σ × UInt8) (s : σ),
      visit? f s n = some ((mapContents f s n.wire).1, ⟨(mapContents f s n.wire).2⟩) :=
    fun σ f s => hn.valid.visit?_eq f s
  have hlengths : ∀ l ∈ labels, 1 ≤ l.length ∧ l.length ≤ 63 := by
    intro l hl
    obtain ⟨hne, hle⟩ := hv l hl
    exact ⟨List.length_pos_iff.2 hne, hle⟩
  refine ⟨hlen, ⟨labels, hlengths, hw, hlabels⟩, ?_, ⟨?_, ?_⟩, ?_, hvisit, hvisit Unit _ (),
    fun flips => hvisit Nat _ 0⟩
  · rw [hlabels, hw, cutLabels?_encodeLabels hv]
  · rw [hlabels, List.length_append, List.length_singleton]
    omega
  · intro i l h
    rw [hlabels] at h ⊢
    rw [eq_nil_iff_last hv h, List.length_append, List.length_singleton, Nat.add_right_cancel_iff]
  · rw [hlabels, hw, List.flatMap_append]
    rfl

/-- A name of 127 labels of one octet. -/
def longest (b : UInt8) : Name :=
  ⟨encodeLabels (List.replicate 127 [b])⟩

/-- Its labels are valid. -/
theorem validLabel_longest (b : UInt8) : ∀ l ∈ List.replicate 127 [b], ValidLabel l := by
  intro l hl
  rw [List.eq_of_mem_replicate hl]
  exact ⟨List.cons_ne_nil _ _, Nat.le_of_ble_eq_true rfl⟩

/-- It is as long as names are. -/
theorem length_longest (b : UInt8) : (longest b).wire.length = maxWireLength := by
  rw [longest, length_encodeLabels, List.map_replicate, List.sum_replicate]
  rfl

/-- It is valid. -/
theorem valid_longest (b : UInt8) : (longest b).Valid :=
  ⟨_, validLabel_longest b, rfl, Nat.le_of_eq (length_longest b)⟩

/-- The longest name, with the cases of its letters flipped. -/
theorem walk_exact_longest :
    let n := longest 0x41
    n.Obtainable ∧ n.wire.length = 255 ∧ n.labels.length = 128 ∧ cutLabels? n.wire = some n.labels ∧
      visit? (flipLetter fun _ => true) 0 n = some (127, longest 0x61) := by
  intro n
  have hv := validLabel_longest 0x41
  have hwire : n.wire = encodeLabels (List.replicate 127 [0x41]) := rfl
  have hlabels : n.labels = List.replicate 127 [0x41] ++ [[]] := labels_of_wire hv hwire
  have hn : n.Obtainable := .decoded (decode?_wire (valid_longest 0x41) #[] #[])
  obtain ⟨-, -, hcut, -, -, -, -, hflip⟩ := walk_exact n hn
  refine ⟨hn, length_longest 0x41, ?_, hcut, ?_⟩
  · rw [hlabels]
    rfl
  · rw [hflip, withCase, hwire, mapContents_encodeLabels _ _ hv]
    decide +kernel

end DnsRelay.Name
