import DnsRelay.Message.Patch
import DnsRelay.Proofs.Name.Chain

/-!
# What changing a message in place keeps

Setting the id changes the first two octets and no others. Writing a name over the first name of a message succeeds only where
this name stands uncompressed, in any case; the name written then reads back, and only its own octets have changed.
-/

namespace DnsRelay.Octets

/-- The message has the same octets as another one behind the id, and as many. -/
structure SameBody (octets octets' : Octets) : Prop where
  size : octets'.size = octets.size
  body : ∀ k, 2 ≤ k → octets'[k]? = octets[k]?

namespace SameBody

variable {octets octets' : Octets}

theorem symm (h : SameBody octets octets') : SameBody octets' octets :=
  ⟨h.size.symm, fun k hk => (h.body k hk).symm⟩

/-- Slices behind the id are the same. -/
theorem slice?_eq (h : SameBody octets octets') {start : Nat} (hstart : 2 ≤ start) (length : Nat) :
    octets'.slice? start length = octets.slice? start length := by
  have he : octets'.extract start (start + length) = octets.extract start (start + length) := by
    refine Array.ext_getElem? fun k => ?_
    rw [Array.getElem?_extract, Array.getElem?_extract, h.size, h.body _ (by omega)]
  rw [slice?, slice?, h.size, he]

/-- Numbers of two octets behind the id are the same. -/
theorem u16At?_eq (h : SameBody octets octets') {start : Nat} (hstart : 2 ≤ start) :
    octets'.u16At? start = octets.u16At? start := by
  rw [u16At?, u16At?, h.body _ hstart, h.body _ (by omega)]

/-- Numbers of four octets behind the id are the same. -/
theorem u32At?_eq (h : SameBody octets octets') {start : Nat} (hstart : 2 ≤ start) :
    octets'.u32At? start = octets.u32At? start := by
  rw [u32At?, u32At?, h.body _ hstart, h.body _ (by omega), h.body _ (by omega), h.body _ (by omega)]

end SameBody

/-- An overwritten octet is the new one. -/
theorem getElem?_overwrite_of_lt (octets : Octets) {start : Nat} {new : List UInt8} (hle : start + new.length ≤ octets.size)
    {k : Nat} (hk : k < new.length) : (octets.overwrite start new)[start + k]? = new[k]? := by
  rw [getElem?_overwrite, if_pos (by omega), Nat.add_sub_cancel_left]

/-- An octet outside of what is overwritten stays. -/
theorem getElem?_overwrite_of_not (octets : Octets) {start : Nat} {new : List UInt8} {k : Nat}
    (hk : k < start ∨ start + new.length ≤ k) : (octets.overwrite start new)[k]? = octets[k]? := by
  rw [getElem?_overwrite, if_neg (by omega)]

/-- What was written stands there. -/
theorem slice?_overwrite (octets : Octets) {start : Nat} {new : List UInt8} (hne : new ≠ [])
    (hle : start + new.length ≤ octets.size) : (octets.overwrite start new).slice? start new.length = some new := by
  rw [slice?_eq_some_iff_getElem? _ _ hne]
  intro k hk
  exact getElem?_overwrite_of_lt octets hle hk

/-! ## Setting the id -/

/-- Another id leaves everything behind it as it is. -/
theorem sameBody_setId (octets : Octets) (id : UInt16) : SameBody octets (octets.setId id) := by
  unfold setId
  split
  · refine ⟨size_overwrite _ _ _, fun k hk => getElem?_overwrite_of_not _ (Or.inr ?_)⟩
    rw [length_ofU16]
    omega
  · exact ⟨rfl, fun _ _ => rfl⟩

/-- The first two octets are the new id. -/
theorem getElem?_setId (octets : Octets) (h : 2 ≤ octets.size) (id : UInt16) :
    (octets.setId id)[0]? = some (UInt8.ofNat (id.toNat / 256)) ∧
      (octets.setId id)[1]? = some (UInt8.ofNat (id.toNat % 256)) := by
  rw [setId, if_pos h]
  have hle : 0 + (ofU16 id).length ≤ octets.size := by
    rw [length_ofU16]
    omega
  constructor
  · exact getElem?_overwrite_of_lt octets hle (k := 0) (by rw [length_ofU16]; omega)
  · exact getElem?_overwrite_of_lt octets hle (k := 1) (by rw [length_ofU16]; omega)

/-! ## Writing a name over the first one -/

/-- A name is written over the first one iff the octets there are the same in any case. -/
theorem overwriteName?_eq_some_iff (octets octets' : Octets) (name : Name) :
    octets.overwriteName? name = some octets' ↔ octets' = octets.overwrite headerSize name.wire ∧
      ∃ present, octets.slice? headerSize name.wire.length = some present ∧
        sameIgnoringCase present name.wire = true := by
  unfold overwriteName?
  constructor
  · split
    · rename_i present hs
      split
      · rename_i hsame
        rintro ⟨rfl⟩
        exact ⟨rfl, present, hs, hsame⟩
      · nofun
    · nofun
  · rintro ⟨rfl, present, hs, hsame⟩
    simp [hs, hsame]

/-- Writing behind the id and setting the id can be done in either order. -/
theorem overwrite_setId (octets : Octets) (id : UInt16) {start : Nat} (hstart : 2 ≤ start) (new : List UInt8) :
    (octets.setId id).overwrite start new = (octets.overwrite start new).setId id := by
  have hsize : (octets.overwrite start new).size = octets.size := size_overwrite _ _ _
  unfold setId
  rw [hsize]
  split
  · refine Array.ext_getElem? fun k => ?_
    by_cases hk : k < 2
    · have hfront : k < start ∨ start + new.length ≤ k := Or.inl (by omega)
      rw [getElem?_overwrite_of_not _ hfront, getElem?_overwrite, getElem?_overwrite, hsize,
        getElem?_overwrite_of_not octets hfront]
    · have hbehind : 0 + (ofU16 id).length ≤ k := by
        rw [length_ofU16]
        omega
      rw [getElem?_overwrite, size_overwrite, getElem?_overwrite_of_not octets (Or.inr hbehind),
        getElem?_overwrite_of_not _ (Or.inr hbehind), getElem?_overwrite]
  · rfl

/-- The id does not matter for writing a name. -/
theorem overwriteName?_setId (octets : Octets) (id : UInt16) (name : Name) :
    (octets.setId id).overwriteName? name = (octets.overwriteName? name).map (·.setId id) := by
  have h2 : 2 ≤ headerSize := by decide
  unfold overwriteName?
  rw [(sameBody_setId octets id).slice?_eq h2]
  split
  · rw [overwrite_setId octets id h2]
    split
    · rfl
    · rfl
  · rfl

/-- A name that was written over the first one is read there, without a pointer; what stood there before was the same name,
also without a pointer. -/
theorem readFrom_of_overwriteName? {octets octets' : Octets} {name : Name} (hname : name.Valid)
    (h : octets.overwriteName? name = some octets') :
    (∃ labels, Name.Spelled octets' headerSize headerSize [] labels (headerSize + name.wire.length) ∧
      name.wire = Name.encodeLabels labels) ∧
    ∃ labels, Name.Spelled octets headerSize headerSize [] labels (headerSize + name.wire.length) ∧
      sameIgnoringCase (Name.encodeLabels labels) name.wire = true := by
  obtain ⟨rfl, present, hs, hsame⟩ := (overwriteName?_eq_some_iff _ _ _).1 h
  have hlen := length_of_slice? hs
  have hle := ((slice?_eq_some_iff _ _ _ _).1 hs).1
  constructor
  · have hslice := slice?_overwrite octets hname.wire_ne_nil hle
    obtain ⟨labels, hv, hw, -⟩ := hname
    refine ⟨labels, (Name.spelled_nil_iff _ _ _ _ _).2 ⟨hv, by rw [hw], ?_⟩, hw⟩
    rwa [← hw]
  · have hpresent : (⟨present⟩ : Name).Valid := hname.of_same hsame
    obtain ⟨labels, hv, hw, -⟩ := hpresent
    dsimp only at hw
    refine ⟨labels, (Name.spelled_nil_iff _ _ _ _ _).2 ⟨hv, by rw [← hw, hlen], ?_⟩, by rw [← hw]; exact hsame⟩
    rw [← hw, hlen]
    exact hs

/-- A name is written over one that is the same and stands without a pointer. -/
theorem overwriteName?_isSome {octets : Octets} {name : Name} {labels : List (List UInt8)} {stop : Nat}
    (hs : Name.Spelled octets headerSize headerSize [] labels stop)
    (hsame : sameIgnoringCase (Name.encodeLabels labels) name.wire = true) :
    (octets.overwriteName? name).isSome = true := by
  obtain ⟨-, -, hslice⟩ := (Name.spelled_nil_iff _ _ _ _ _).1 hs
  rw [Option.isSome_iff_exists]
  refine ⟨_, (overwriteName?_eq_some_iff _ _ _).2 ⟨rfl, _, ?_, hsame⟩⟩
  rw [← Name.length_of_same hsame]
  exact hslice

/-- A name can be written over the first one iff that is the same name in any case, and takes up as many octets as it has. -/
theorem overwriteName?_isSome_iff (octets : Octets) {name : Name} (hname : name.Valid) :
    (octets.overwriteName? name).isSome = true ↔
      ∃ n, Name.decode? octets headerSize = .ok (n, name.wire.length) ∧ n.same name = true := by
  rw [Option.isSome_iff_exists]
  constructor
  · rintro ⟨octets', h⟩
    obtain ⟨-, present, hs, hsame⟩ := (overwriteName?_eq_some_iff _ _ _).1 h
    have hpresent : (⟨present⟩ : Name).Valid := hname.of_same hsame
    refine ⟨⟨present⟩, ?_, hsame⟩
    rw [← Name.length_of_same hsame] at hs ⊢
    exact (Name.decode?_whole_iff _ _ ⟨present⟩).2 ⟨hpresent, hs⟩
  · rintro ⟨n, hn, hsame⟩
    rw [← Name.length_of_same hsame] at hn
    have hs := ((Name.decode?_whole_iff _ _ _).1 hn).2
    rw [Name.length_of_same hsame] at hs
    exact ⟨_, (overwriteName?_eq_some_iff _ _ _).2 ⟨rfl, n.wire, hs, hsame⟩⟩

/-- A name that was written over the first one is decoded there, and takes up as many octets as it has. -/
theorem decode?_of_overwriteName? {octets octets' : Octets} {name : Name} (hname : name.Valid)
    (h : octets.overwriteName? name = some octets') : Name.decode? octets' headerSize = .ok (name, name.wire.length) := by
  obtain ⟨rfl, present, hs, -⟩ := (overwriteName?_eq_some_iff _ _ _).1 h
  have hle := ((slice?_eq_some_iff _ _ _ _).1 hs).1
  exact (Name.decode?_whole_iff _ _ _).2 ⟨hname, slice?_overwrite octets hname.wire_ne_nil hle⟩

/-- A valid name can be written over the first name of a message iff that is the same name in some case and takes up as many
octets; then it stands there uncompressed. If it is written, this very name is decoded there, in as many octets. No octet
outside of these changes, and none at all if it cannot be written. -/
theorem overwriteName?_exact (octets : Octets) (q : Name) (hq : q.Valid) :
    ((octets.overwriteName? q).isSome = true ↔
      ∃ n, Name.decode? octets headerSize = .ok (n, q.wire.length) ∧ n.same q = true) ∧
    (∀ n, Name.decode? octets headerSize = .ok (n, q.wire.length) → n.same q = true →
      octets.slice? headerSize q.wire.length = some n.wire) ∧
    ((octets.overwriteName? q).isSome = true →
      Name.decode? ((octets.overwriteName? q).getD octets) headerSize = .ok (q, q.wire.length) ∧
        ((octets.overwriteName? q).getD octets).size = octets.size) ∧
    (∀ k, k < headerSize ∨ headerSize + q.wire.length ≤ k → ((octets.overwriteName? q).getD octets)[k]? = octets[k]?) ∧
    ((octets.overwriteName? q).isSome = false → (octets.overwriteName? q).getD octets = octets) := by
  refine ⟨overwriteName?_isSome_iff octets hq, ?_, ?_, ?_, ?_⟩
  · intro n hn hsame
    rw [← Name.length_of_same hsame] at hn ⊢
    exact ((Name.decode?_whole_iff _ _ _).1 hn).2
  · intro hsome
    obtain ⟨octets', h⟩ := Option.isSome_iff_exists.1 hsome
    rw [h, Option.getD_some]
    refine ⟨decode?_of_overwriteName? hq h, ?_⟩
    rw [((overwriteName?_eq_some_iff _ _ _).1 h).1, size_overwrite]
  · intro k hk
    cases h : octets.overwriteName? q with
    | none => rfl
    | some octets' =>
      rw [Option.getD_some, ((overwriteName?_eq_some_iff _ _ _).1 h).1]
      exact getElem?_overwrite_of_not octets hk
  · intro hnone
    rw [Option.isSome_eq_false_iff, Option.isNone_iff_eq_none] at hnone
    rw [hnone, Option.getD_none]

/-- A name is written over itself in other cases, with octets next to letters that have none; it is not written over what
reads as a name in other cases but goes on through a pointer, here to octet 6, the null label. -/
theorem overwriteName?_exact_uncompressed :
    let octets : Octets := #[0, 7, 0x81, 0x80, 0, 1, 0, 0, 0, 0, 0, 0, 3, 0x57, 0x77, 0x57, 2, 0x5b, 0x40, 0, 0, 1, 0, 1]
    let q : Name := ⟨[3, 0x77, 0x77, 0x77, 2, 0x5b, 0x40, 0]⟩
    let pointed : Octets := #[0, 7, 0x81, 0x80, 0, 1, 0, 0, 0, 0, 0, 0, 1, 0x41, 0xc0, 6, 0, 1, 0, 1]
    let r : Name := ⟨[1, 0x61, 0]⟩
    q.Valid ∧ r.Valid ∧ (octets.overwriteName? q).isSome = true ∧
      Name.decode? ((octets.overwriteName? q).getD octets) headerSize = .ok (q, 8) ∧
      Name.decode? pointed headerSize = .ok (⟨[1, 0x41, 0]⟩, 4) ∧ (pointed.overwriteName? r).isSome = false := by
  intro octets q pointed r
  have hq : q.Valid := ⟨[[0x77, 0x77, 0x77], [0x5b, 0x40]], by simp [Name.ValidLabel, Name.maxLabelLength], rfl, by decide⟩
  have hr : r.Valid := ⟨[[0x61]], by simp [Name.ValidLabel, Name.maxLabelLength], rfl, by decide⟩
  have hread : Name.decode? octets headerSize = .ok (⟨[3, 0x57, 0x77, 0x57, 2, 0x5b, 0x40, 0]⟩, 8) := by cbv
  have hpointed : Name.decode? pointed headerSize = .ok (⟨[1, 0x41, 0]⟩, 4) := by cbv
  obtain ⟨hsome, -, hafter, -⟩ := overwriteName?_exact octets q hq
  obtain ⟨hsome', -⟩ := overwriteName?_exact pointed r hr
  have hwritten : (octets.overwriteName? q).isSome = true := hsome.2 ⟨_, hread, by cbv⟩
  refine ⟨hq, hr, hwritten, (hafter hwritten).1, hpointed, ?_⟩
  rw [Bool.eq_false_iff, Ne, hsome']
  rintro ⟨n, hn, -⟩
  rw [hpointed] at hn
  cases hn

end DnsRelay.Octets
