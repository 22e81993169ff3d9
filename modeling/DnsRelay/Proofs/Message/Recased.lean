import DnsRelay.Proofs.Message.Reading

/-!
# Messages in another case

Setting the id of a message and writing its name over in another case leave the message as it is but for the id and the case of
letters of this name (`Recased`). Both can be undone: the name that was read from a message, written over the same name in any
case, gives the message back (`overwriteName?_of_overwriteName?`), and so does its own id (`SameBody.setId_id`). Neither of them
touches the octet whose highest bit marks a response.
-/

namespace DnsRelay

namespace Octets

/-- `octets'` is as long as `octets` and differs from it at most in the id and in the case of letters that stand behind the header
and in front of `stop`. -/
structure Recased (octets octets' : Octets) (stop : Nat) : Prop where
  size : octets'.size = octets.size
  changed : ∀ (k : Nat) b b', octets[k]? = some b → octets'[k]? = some b' → b ≠ b' →
    k < 2 ∨ headerSize ≤ k ∧ k < stop ∧ Octet.isLetter b = true ∧ b' = Octet.flipCase b

/-- A message differs in nothing from itself. -/
theorem recased_refl (octets : Octets) (stop : Nat) : Recased octets octets stop := by
  refine ⟨rfl, fun k b b' hb hb' hne => ?_⟩
  rw [hb] at hb'
  cases hb'
  exact absurd rfl hne

/-- Another id makes no other difference. -/
theorem Recased.setId {octets octets' : Octets} {stop : Nat} (h : Recased octets octets' stop) (id : UInt16) :
    Recased octets (octets'.setId id) stop := by
  have hbody := sameBody_setId octets' id
  refine ⟨hbody.size.trans h.size, fun k b b' hb hb' hne => ?_⟩
  by_cases hk : k < 2
  · exact Or.inl hk
  · rw [hbody.body k (by omega)] at hb'
    exact h.changed k b b' hb hb' hne

/-- Runs that are the same but for case differ, place by place, at most in the case of letters. -/
theorem flipCase_of_same {a b : List UInt8} (h : sameIgnoringCase a b = true) {k : Nat} {x y : UInt8} (hx : a[k]? = some x)
    (hy : b[k]? = some y) (hne : x ≠ y) : Octet.isLetter x = true ∧ y = Octet.flipCase x := by
  have hmap := congrArg (fun l : List UInt8 => l[k]?) ((sameIgnoringCase_iff a b).1 h)
  simp only [List.getElem?_map, hx, hy, Option.map_some, Option.some.injEq] at hmap
  exact Octet.flipCase_of_lower hmap hne

section Overwrite

variable {octets octets' : Octets} {name : Name}

/-- What stands where a name is written over it. -/
theorem getElem?_of_overwriteName? (h : octets.overwriteName? name = some octets') :
    ∃ present, sameIgnoringCase present name.wire = true ∧ ∀ k < name.wire.length,
      octets[headerSize + k]? = present[k]? ∧ octets'[headerSize + k]? = name.wire[k]? := by
  obtain ⟨rfl, present, hs, hsame⟩ := (overwriteName?_eq_some_iff _ _ _).1 h
  have hle := ((slice?_eq_some_iff _ _ _ _).1 hs).1
  have hlen := length_of_slice? hs
  refine ⟨present, hsame, fun k hk => ⟨?_, getElem?_overwrite_of_lt octets hle hk⟩⟩
  have hne : present ≠ [] := List.ne_nil_of_length_pos (by omega)
  rw [← hlen] at hs hk
  exact (slice?_eq_some_iff_getElem? octets headerSize hne).1 hs k hk

/-- Writing a name over the first one changes at most the case of its letters. -/
theorem recased_of_overwriteName? (h : octets.overwriteName? name = some octets') :
    Recased octets octets' (headerSize + name.wire.length) := by
  obtain ⟨present, hsame, hplaces⟩ := getElem?_of_overwriteName? h
  have hover := ((overwriteName?_eq_some_iff _ _ _).1 h).1
  refine ⟨by rw [hover, size_overwrite], fun k b b' hb hb' hne => Or.inr ?_⟩
  by_cases hk : headerSize ≤ k ∧ k < headerSize + name.wire.length
  · obtain ⟨hpresent, hname⟩ := hplaces (k - headerSize) (by omega)
    rw [Nat.add_sub_cancel' hk.1] at hpresent hname
    exact ⟨hk.1, hk.2, flipCase_of_same hsame (hpresent.symm.trans hb) (hname.symm.trans hb') hne⟩
  · rw [hover, getElem?_overwrite_of_not octets (by omega), hb] at hb'
    cases hb'
    exact absurd rfl hne

/-- If a name can be written over the name that is read from a message, this name stands there as it is read. -/
theorem slice?_of_overwriteName? {m : Message} {q : Question} {r : Reader}
    (hq : (Reader.ofMessage m).readQuestion = .ok (q, r)) (hsame : name.same q.qname = true)
    (h : m.octets.overwriteName? name = some octets') :
    m.octets.slice? headerSize q.qname.wire.length = some q.qname.wire ∧
      ∃ labels, Name.Spelled m.octets headerSize headerSize [] labels (headerSize + q.qname.wire.length) ∧
        q.qname.wire = Name.encodeLabels labels := by
  have hvalid : name.Valid := (Reader.valid_of_readQuestion hq).of_same hsame
  obtain ⟨-, labels, hs, -⟩ := readFrom_of_overwriteName? hvalid h
  obtain ⟨stop, hn, -⟩ := (Reader.readQuestion_ok_iff _ _ _ _).1 hq
  obtain ⟨runs, labels', hs', hw, -⟩ := (Name.readFrom_ok_iff _ _ _ _ _ _).1 ((Reader.nameAt?_ok_iff _ _ _ _).1 hn)
  obtain ⟨-, rfl, -⟩ := hs.unique hs'
  rw [List.nil_append] at hw
  have hpresent := ((Name.spelled_nil_iff _ _ _ _ _).1 hs).2.2
  rw [← hw] at hpresent
  rw [Name.length_of_same hsame] at hs
  exact ⟨hpresent, labels, hs, hw⟩

/-- Writing something over as many octets makes up for writing something else there before. -/
theorem overwrite_overwrite (octets : Octets) (start : Nat) {old new : List UInt8} (hlen : old.length = new.length) :
    (octets.overwrite start old).overwrite start new = octets.overwrite start new := by
  refine Array.ext_getElem? fun k => ?_
  rw [getElem?_overwrite, getElem?_overwrite, getElem?_overwrite, size_overwrite, hlen]
  split
  · rfl
  · rfl

/-- Writing what stands there changes nothing. -/
theorem overwrite_of_slice? {start : Nat} {present : List UInt8} (h : octets.slice? start present.length = some present) :
    octets.overwrite start present = octets := by
  refine Array.ext_getElem? fun k => ?_
  rw [getElem?_overwrite]
  split
  · rename_i hk
    have hne : present ≠ [] := List.ne_nil_of_length_pos (by omega)
    have hplace := (slice?_eq_some_iff_getElem? octets start hne).1 h (k - start) (by omega)
    rw [Nat.add_sub_cancel' hk.1] at hplace
    exact hplace.symm
  · rfl

/-- The name that is read from a message, written over this name in any case, gives the message back. -/
theorem overwriteName?_of_overwriteName? {m : Message} {q : Question} {r : Reader}
    (hq : (Reader.ofMessage m).readQuestion = .ok (q, r)) (hsame : name.same q.qname = true)
    (h : m.octets.overwriteName? name = some octets') : octets'.overwriteName? q.qname = some m.octets := by
  have hvalid : name.Valid := (Reader.valid_of_readQuestion hq).of_same hsame
  have hpresent := (slice?_of_overwriteName? hq hsame h).1
  have hlen : name.wire.length = q.qname.wire.length := Name.length_of_same hsame
  have hle := ((slice?_eq_some_iff _ _ _ _).1 hpresent).1
  obtain ⟨rfl, -⟩ := (overwriteName?_eq_some_iff _ _ _).1 h
  refine (overwriteName?_eq_some_iff _ _ _).2 ⟨?_, name.wire, ?_, hsame⟩
  · rw [overwrite_overwrite _ _ hlen, overwrite_of_slice? hpresent]
  · rw [← hlen]
    exact slice?_overwrite m.octets hvalid.wire_ne_nil (by omega)

end Overwrite

/-! ## Undoing another id -/

/-- The octets of a number that was made of two octets are these. -/
theorem ofU16_u16 (hi lo : UInt8) : ofU16 (u16 hi lo) = [hi, lo] := by
  have hhi := hi.toNat_lt
  have hlo := lo.toNat_lt
  have hn : (u16 hi lo).toNat = hi.toNat * 256 + lo.toNat := by
    rw [u16, UInt16.toNat_ofNat']
    omega
  have hdiv : (u16 hi lo).toNat / 256 = hi.toNat := by omega
  have hmod : (u16 hi lo).toNat % 256 = lo.toNat := by omega
  rw [ofU16, hdiv, hmod, UInt8.ofNat_toNat, UInt8.ofNat_toNat]

/-- The id of a message gives the message back from what has the same octets behind it. -/
theorem SameBody.setId_id {m : Message} {octets' : Octets} (h : m.octets.SameBody octets') :
    octets'.setId m.id = m.octets := by
  have hsize : 2 ≤ octets'.size := by
    rw [h.size]
    exact Nat.le_trans (by decide) m.hasHeader
  have hplace : ∀ i : Fin 12, m.octets[i.val]? = some (m.headerOctet i) := fun i =>
    Array.getElem?_eq_getElem (Nat.lt_of_lt_of_le i.isLt m.hasHeader)
  obtain ⟨hhi, hlo⟩ : UInt8.ofNat (m.id.toNat / 256) = m.headerOctet 0 ∧ UInt8.ofNat (m.id.toNat % 256) = m.headerOctet 1 := by
    simpa [ofU16, Message.id] using ofU16_u16 (m.headerOctet 0) (m.headerOctet 1)
  obtain ⟨h0, h1⟩ := getElem?_setId octets' hsize m.id
  rw [hhi] at h0
  rw [hlo] at h1
  refine Array.ext_getElem? fun k => ?_
  match k with
  | 0 => exact h0.trans (hplace 0).symm
  | 1 => exact h1.trans (hplace 1).symm
  | k + 2 => exact ((sameBody_setId octets' m.id).body (k + 2) (by omega)).trans (h.body (k + 2) (by omega))

/-! ## Marking a response -/

/-- The message with the bit set that marks a response. -/
def asResponse (octets : Octets) : Octets :=
  octets.modify 2 (· ||| Header.responseBit)

/-- Marking a response changes octet 2 and no other one. -/
theorem getElem?_asResponse (octets : Octets) (k : Nat) :
    octets.asResponse[k]? = if 2 = k then octets[k]?.map (· ||| Header.responseBit) else octets[k]? :=
  Array.getElem?_modify

/-- Marking a response adds no octet. -/
theorem size_asResponse (octets : Octets) : octets.asResponse.size = octets.size :=
  Array.size_modify

/-- Writing beside octet 2 and marking a response can be done in either order. -/
theorem overwrite_asResponse (octets : Octets) {start : Nat} {new : List UInt8} (hbeside : start + new.length ≤ 2 ∨ 2 < start) :
    octets.asResponse.overwrite start new = (octets.overwrite start new).asResponse := by
  refine Array.ext_getElem? fun k => ?_
  rw [getElem?_asResponse]
  by_cases hk : 2 = k
  · have hmiss : k < start ∨ start + new.length ≤ k := by omega
    rw [if_pos hk, getElem?_overwrite_of_not _ hmiss, getElem?_overwrite_of_not _ hmiss, getElem?_asResponse, if_pos hk]
  · rw [if_neg hk, getElem?_overwrite, getElem?_overwrite, size_asResponse, getElem?_asResponse, if_neg hk]

/-- So can setting the id and marking a response. -/
theorem setId_asResponse (octets : Octets) (id : UInt16) : octets.asResponse.setId id = (octets.setId id).asResponse := by
  unfold setId
  rw [size_asResponse, overwrite_asResponse octets (Or.inl (Nat.le_of_eq (by rw [length_ofU16])))]
  split
  · rfl
  · rfl

/-- So can writing a name over the first one and marking a response. -/
theorem overwriteName?_asResponse (octets : Octets) (name : Name) :
    octets.asResponse.overwriteName? name = (octets.overwriteName? name).map asResponse := by
  have hslice : octets.asResponse.slice? headerSize name.wire.length = octets.slice? headerSize name.wire.length := by
    have hextract : octets.asResponse.extract headerSize (headerSize + name.wire.length) =
        octets.extract headerSize (headerSize + name.wire.length) := by
      refine Array.ext_getElem? fun k => ?_
      have hne : ¬2 = headerSize + k := by
        unfold headerSize
        omega
      rw [Array.getElem?_extract, Array.getElem?_extract, size_asResponse, getElem?_asResponse, if_neg hne]
    rw [slice?, slice?, size_asResponse, hextract]
  unfold overwriteName?
  rw [hslice, overwrite_asResponse octets (Or.inr (by decide))]
  split
  · split
    · rfl
    · rfl
  · rfl

end Octets

end DnsRelay
