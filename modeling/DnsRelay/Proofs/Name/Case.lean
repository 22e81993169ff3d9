import DnsRelay.Proofs.Name.Compressed

/-!
# Names and the case of their letters

A valid name is the wire form of valid labels and not too long. Names that differ at most in the case of letters have the
same lengths in front of their labels, because no length is a letter; so what is the same as a valid name is valid.
-/

namespace DnsRelay

/-- Octets with the same small form are the same, or the two cases of one letter. -/
theorem Octet.flipCase_of_lower {a b : UInt8} (h : lower a = lower b) (hne : a ≠ b) :
    isLetter a = true ∧ b = flipCase a := by
  have hcapital : ∀ c, isCapital c = true → isLetter c = true ∧ c + 0x20 = flipCase c ∧
      isLetter (c + 0x20) = true ∧ c = flipCase (c + 0x20) := forall_of_lt (by decide +kernel)
  unfold lower at h
  cases ha : isCapital a with
  | true =>
    obtain ⟨hletter, hflip, -⟩ := hcapital a ha
    cases hb : isCapital b with
    | true =>
      rw [if_pos ha, if_pos hb] at h
      exact absurd ((UInt8.add_left_inj _).1 h) hne
    | false =>
      rw [if_pos ha, hb] at h
      exact ⟨hletter, h.symm.trans hflip⟩
  | false =>
    cases hb : isCapital b with
    | true =>
      obtain ⟨-, -, hletter, hflip⟩ := hcapital b hb
      rw [ha, if_pos hb] at h
      have h' : a = b + 0x20 := h
      exact ⟨h' ▸ hletter, h' ▸ hflip⟩
    | false =>
      rw [ha, hb] at h
      exact absurd h hne

namespace Name

/-- A name that is well formed on the wire. -/
def Valid (n : Name) : Prop :=
  ∃ labels, (∀ l ∈ labels, ValidLabel l) ∧ n.wire = encodeLabels labels ∧ n.wire.length ≤ maxWireLength

/-- Every name that is read is valid. -/
theorem valid_of_readFrom {octets : Octets} {start : Nat} {name : Name} {stop : Nat}
    (h : Compressed.readFrom octets start start [] = .ok (name, stop)) : name.Valid := by
  obtain ⟨runs, labels, hs, hname, hlen⟩ := (readFrom_ok_iff _ _ _ _ _ _).1 h
  exact ⟨labels, hs.valid, hname, hlen⟩

/-- A valid name has octets on the wire. -/
theorem Valid.wire_ne_nil {name : Name} (h : name.Valid) : name.wire ≠ [] := by
  obtain ⟨labels, -, hw, -⟩ := h
  rw [hw]
  exact encodeLabels_ne_nil labels

namespace CaseAux

/-- An octet whose small form is no letter is its own small form. -/
theorem eq_lower_of_le : ∀ b, (Octet.lower b).toNat ≤ 63 → b = Octet.lower b :=
  Octet.forall_of_lt (by decide +kernel)

/-- The length of a label is its own small form. -/
theorem lower_length : ∀ n < 64, Octet.lower (UInt8.ofNat n) = UInt8.ofNat n := by
  decide +kernel

/-- The small form of an octet is the length of a label only if the octet is this length itself. -/
theorem eq_of_lower_eq_length {n : Nat} (hn : n ≤ 63) {b : UInt8}
    (h : Octet.lower b = Octet.lower (UInt8.ofNat n)) : b = UInt8.ofNat n := by
  rw [lower_length n (by omega)] at h
  have hle : (Octet.lower b).toNat ≤ 63 := by
    rw [h, UInt8.toNat_ofNat']
    omega
  rw [eq_lower_of_le b hle, h]

/-- The other case of a letter is the same letter. -/
theorem lower_flipCase : ∀ b, Octet.isLetter b = true → Octet.lower (Octet.flipCase b) = Octet.lower b :=
  Octet.forall_of_lt (by decide +kernel)

/-- Mapping octets in a way that keeps their small forms keeps the small form of the run. -/
theorem map_lower_mapOctets {σ : Type} {f : σ → UInt8 → σ × UInt8}
    (hf : ∀ s b, Octet.lower (f s b).2 = Octet.lower b) (s : σ) (octets : List UInt8) :
    (mapOctets f s octets).2.map Octet.lower = octets.map Octet.lower := by
  induction octets generalizing s with
  | nil => rfl
  | cons b bs ih => rw [mapOctets, List.map_cons, List.map_cons, hf, ih]

/-- The same for the octets of the labels of a wire form. -/
theorem map_lower_mapContents {σ : Type} {f : σ → UInt8 → σ × UInt8}
    (hf : ∀ s b, Octet.lower (f s b).2 = Octet.lower b) (s : σ) (wire : List UInt8) :
    (mapContents f s wire).2.map Octet.lower = wire.map Octet.lower := by
  fun_induction mapContents f s wire with
  | case1 => rfl
  | case2 s n rest contents others ih =>
    rw [List.cons_append, List.map_cons, List.map_append, ih, map_lower_mapOctets hf, ← List.map_append,
      List.take_append_drop, List.map_cons]

/-- What differs from a wire form at most in the case of letters is a wire form, label by label of the same lengths. -/
theorem encodeLabels_of_same {labels : List (List UInt8)} (hv : ∀ l ∈ labels, ValidLabel l) {wire : List UInt8}
    (h : wire.map Octet.lower = (encodeLabels labels).map Octet.lower) :
    ∃ labels', (∀ l ∈ labels', ValidLabel l) ∧ wire = encodeLabels labels' := by
  induction labels generalizing wire with
  | nil =>
    obtain ⟨b, rfl, hb⟩ := List.map_eq_singleton_iff.1 h
    exact ⟨[], by simp, by rw [eq_of_lower_eq_length (Nat.zero_le 63) hb]; rfl⟩
  | cons label labels ih =>
    obtain ⟨hl, hv⟩ := List.forall_mem_cons.1 hv
    rw [encodeLabels_cons, List.map_append, List.map_eq_append_iff] at h
    obtain ⟨first, others, rfl, hfirst, hothers⟩ := h
    obtain ⟨labels', hv', rfl⟩ := ih hv hothers
    rw [encodeLabel, List.map_cons, List.map_eq_cons_iff] at hfirst
    obtain ⟨b, label', rfl, hb, hlabel⟩ := hfirst
    have hlen : label'.length = label.length := by simpa using congrArg List.length hlabel
    have hl' : ValidLabel label' := by
      refine ⟨fun he => hl.1 ?_, hlen ▸ hl.2⟩
      rw [he] at hlen
      exact List.length_eq_zero_iff.1 hlen.symm
    refine ⟨label' :: labels', List.forall_mem_cons.2 ⟨hl', hv'⟩, ?_⟩
    rw [encodeLabels_cons, encodeLabel, hlen, eq_of_lower_eq_length hl.2 hb]

end CaseAux

open CaseAux

/-- Names that are the same are equally long. -/
theorem length_of_same {a b : List UInt8} (h : sameIgnoringCase a b = true) : a.length = b.length := by
  simpa using congrArg List.length ((sameIgnoringCase_iff a b).1 h)

/-- A name is the same as itself. -/
theorem same_refl (n : Name) : n.same n = true :=
  (sameIgnoringCase_iff _ _).2 rfl

/-- Being the same name is symmetric. -/
theorem same_comm (a b : Name) : a.same b = b.same a := by
  rw [Bool.eq_iff_iff, same, same, sameIgnoringCase_iff, sameIgnoringCase_iff, eq_comm]

/-- Names that are the same are the same as the same names. -/
theorem same_congr {a b : Name} (h : a.same b = true) (c : Name) : a.same c = b.same c := by
  rw [same, sameIgnoringCase_iff] at h
  rw [Bool.eq_iff_iff, same, same, sameIgnoringCase_iff, sameIgnoringCase_iff, h]

/-- What is the same as a valid name is valid. -/
theorem Valid.of_same {a b : Name} (hb : b.Valid) (h : a.same b = true) : a.Valid := by
  obtain ⟨labels, hv, hw, hlen⟩ := hb
  have hsame := (sameIgnoringCase_iff a.wire b.wire).1 h
  rw [hw] at hsame
  obtain ⟨labels', hv', hw'⟩ := encodeLabels_of_same hv hsame
  exact ⟨labels', hv', hw', by rw [length_of_same h]; exact hlen⟩

/-- A name is the same as it is in small letters. -/
theorem same_lower (n : Name) : n.lower.same n = true := by
  have hlower : ∀ b, Octet.lower (Octet.lower b) = Octet.lower b := Octet.forall_of_lt (by decide +kernel)
  rw [same, sameIgnoringCase_iff]
  exact map_lower_mapContents (fun _ b => hlower b) () n.wire

/-- A name in another pattern of cases is the same name. -/
theorem same_withCase (flips : Nat → Bool) (n : Name) : (n.withCase flips).2.same n = true := by
  rw [same, sameIgnoringCase_iff]
  refine map_lower_mapContents (fun s b => ?_) 0 n.wire
  unfold flipLetter
  split
  · rename_i hb
    split
    · exact lower_flipCase b hb
    · rfl
  · rfl

end Name

end DnsRelay
