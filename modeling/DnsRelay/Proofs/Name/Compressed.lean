import DnsRelay.Name.Compressed
import DnsRelay.Proofs.Octets

/-!
# The grammar of compressed names

`Spelled octets runStart index runs labels stop` says that the labels `labels` stand at `index` of a message, in a run that
started at `runStart` and ends at `stop`, and that the pointers on the way lead to the places `runs`. Reading a name succeeds
exactly on what is spelled and not too long (`readFrom_ok_iff`). Only the octets that a run starts at or goes on to matter, so
a name that no run of which starts in the id reads the same under every id.
-/

namespace DnsRelay.Name

/-- The wire form of labels, the first one apart. -/
theorem encodeLabels_cons (label : List UInt8) (labels : List (List UInt8)) :
    encodeLabels (label :: labels) = encodeLabel label ++ encodeLabels labels := by
  simp [encodeLabels]

/-- A wire form is not empty. -/
theorem encodeLabels_ne_nil (labels : List (List UInt8)) : encodeLabels labels ≠ [] := by
  simp [encodeLabels]

/-- The octets of a label: at least one, and no more than a length octet can tell. -/
def ValidLabel (label : List UInt8) : Prop :=
  label ≠ [] ∧ label.length ≤ maxLabelLength

/-- A run of labels in a message: it ends in the null label, or in a pointer to a place in front of it where a run goes on. -/
inductive Spelled (octets : Octets) : (runStart index : Nat) → (runs : List Nat) → (labels : List (List UInt8)) →
    (stop : Nat) → Prop where
  | null {runStart index : Nat} : octets[index]? = some 0 → Spelled octets runStart index [] [] (index + 1)
  | pointer {runStart index target : Nat} {hi lo : UInt8} {runs : List Nat} {labels : List (List UInt8)} {stop : Nat} :
      octets[index]? = some hi → octets[index + 1]? = some lo → 192 ≤ hi.toNat →
      target = (hi.toNat - 192) * 256 + lo.toNat → target < runStart → Spelled octets target target runs labels stop →
      Spelled octets runStart index (target :: runs) labels (index + 2)
  | label {runStart index : Nat} {label : List UInt8} {runs : List Nat} {labels : List (List UInt8)} {stop : Nat} :
      ValidLabel label → octets[index]? = some (UInt8.ofNat label.length) →
      octets.slice? (index + 1) label.length = some label →
      Spelled octets runStart (index + (label.length + 1)) runs labels stop →
      Spelled octets runStart index runs (label :: labels) stop

namespace CompressedAux

open Octets

/-- The octets that announce a pointer are the ones from 192 on. -/
theorem isPointer_iff (b : UInt8) : Compressed.isPointer b = true ↔ 192 ≤ b.toNat := by
  revert b
  exact Octet.forall_of_lt (by decide +kernel)

/-- A pointer leads to the number in its lower fourteen bits. -/
theorem target_of_u16 (hi lo : UInt8) (h : 192 ≤ hi.toNat) :
    (Octets.u16 hi lo).toNat % 16384 = (hi.toNat - 192) * 256 + lo.toNat := by
  have hhi := hi.toNat_lt
  have hlo := lo.toNat_lt
  rw [Octets.u16, UInt16.toNat_ofNat']
  omega

/-- A pointer is followed if it leads in front of the run it ends. -/
theorem target?_eq_ok_iff (octets : Octets) (runStart index : Nat) (h : (octets[index]?.any Compressed.isPointer) = true)
    (t : { t : Nat // t < runStart }) :
    Compressed.target? octets runStart index = .ok t ↔ ∃ hi lo, octets[index]? = some hi ∧
      octets[index + 1]? = some lo ∧ 192 ≤ hi.toNat ∧ t.val = (hi.toNat - 192) * 256 + lo.toNat := by
  obtain ⟨hi, hhi, hp⟩ := (Option.any_eq_true _ _).1 h
  have hle := (isPointer_iff hi).1 hp
  obtain ⟨t, ht⟩ := t
  rw [Compressed.target?, Octets.u16At?, hhi]
  cases hlo : octets[index + 1]? with
  | none => simp
  | some lo =>
    simp only [target_of_u16 hi lo hle]
    split
    · simp [hle, eq_comm]
    · rename_i hn
      simp only [reduceCtorEq, false_iff]
      rintro ⟨hi', lo', ⟨rfl⟩, ⟨rfl⟩, -, rfl⟩
      exact hn ht

/-- The length of a label, as the octet in front of it tells it. -/
theorem toNat_length {label : List UInt8} (h : ValidLabel label) : (UInt8.ofNat label.length).toNat = label.length := by
  have hle : label.length ≤ 63 := h.2
  rw [UInt8.toNat_ofNat']
  omega

/-- The octet in front of a label announces a label, neither empty nor too long. -/
theorem label_octet {label : List UInt8} (h : ValidLabel label) :
    Compressed.isPointer (UInt8.ofNat label.length) = false ∧ UInt8.ofNat label.length ≠ 0 := by
  have hle : label.length ≤ 63 := h.2
  have hn := toNat_length h
  constructor
  · rw [Bool.eq_false_iff, Ne, isPointer_iff, hn]
    omega
  · intro h0
    rw [h0] at hn
    exact h.1 (List.length_eq_zero_iff.1 hn.symm)

/-- A run of octets that begins with the length of a label holds the label behind it. -/
theorem extract_label {octets : Octets} {index : Nat} {label : List UInt8}
    (hn : octets[index]? = some (UInt8.ofNat label.length))
    (hs : octets.slice? (index + 1) label.length = some label) :
    (octets.extract index (index + label.length + 1)).toList = encodeLabel label := by
  rw [extract_cons hn, ((slice?_eq_some_iff _ _ _ _).1 hs).2, encodeLabel]

end CompressedAux

open CompressedAux Octets

/-- What is spelled lies in the message. -/
theorem Spelled.lt_size {octets : Octets} {runStart index : Nat} {runs : List Nat} {labels : List (List UInt8)}
    {stop : Nat} (h : Spelled octets runStart index runs labels stop) : index < octets.size := by
  cases h with
  | null h => exact (Array.getElem?_eq_some_iff.1 h).1
  | pointer h _ _ _ _ _ => exact (Array.getElem?_eq_some_iff.1 h).1
  | label _ h _ _ => exact (Array.getElem?_eq_some_iff.1 h).1

/-- What is spelled and not too long is read. -/
theorem Spelled.readFrom {octets : Octets} {runStart index : Nat} {runs : List Nat} {labels : List (List UInt8)}
    {stop : Nat} (h : Spelled octets runStart index runs labels stop) (done : List UInt8)
    (hlen : (done ++ encodeLabels labels).length ≤ maxWireLength) :
    Compressed.readFrom octets runStart index done = .ok (⟨done ++ encodeLabels labels⟩, stop) := by
  induction h generalizing done with
  | null h =>
    have hle : ¬maxWireLength < done.length + 1 := by simpa [encodeLabels] using hlen
    rw [Compressed.readFrom, h]
    simp [show Compressed.isPointer 0 = false by decide, hle, encodeLabels]
  | @pointer runStart index target hi lo runs labels stop hhi hlo hle ht hlt _ ih =>
    have hp := (isPointer_iff hi).2 hle
    have htarget : Compressed.target? octets runStart index = .ok ⟨target, hlt⟩ :=
      (target?_eq_ok_iff octets runStart index (by simp [hhi, hp]) _).2 ⟨hi, lo, hhi, hlo, hle, ht⟩
    rw [Compressed.readFrom, hhi]
    simp only [hp, if_true, htarget, ih done hlen, Except.map]
  | @label runStart index label runs labels stop hv hn hs hrest ih =>
    have hlt := hrest.lt_size
    have hlen' : done ++ encodeLabels (label :: labels) = (done ++ encodeLabel label) ++ encodeLabels labels := by
      simp [encodeLabels]
    rw [hlen'] at hlen ⊢
    have hle : done.length + (label.length + 1) ≤ maxWireLength := by
      simp only [List.length_append, encodeLabel, List.length_cons] at hlen
      omega
    have hl : label.length ≤ maxLabelLength := hv.2
    rw [Compressed.readFrom, hn]
    simp only [(label_octet hv).1, (label_octet hv).2, toNat_length hv, if_false, Bool.false_eq_true]
    rw [if_neg (by omega), if_neg (by omega), if_neg (by omega), extract_label hn hs]
    exact ih _ hlen

/-- What is read is spelled, and not too long. -/
theorem spelled_of_readFrom {octets : Octets} {runStart index : Nat} {done : List UInt8} {name : Name} {stop : Nat}
    (h : Compressed.readFrom octets runStart index done = .ok (name, stop)) :
    ∃ runs labels, Spelled octets runStart index runs labels stop ∧ name.wire = done ++ encodeLabels labels ∧
      name.wire.length ≤ maxWireLength := by
  fun_induction Compressed.readFrom octets runStart index done generalizing stop with
  | case1 => cases h
  | case2 => cases h
  | case3 runStart index done length hlength hp target hlt htarget ih =>
    cases hr : Compressed.readFrom octets target target done with
    | error e =>
      rw [hr] at h
      cases h
    | ok found =>
      obtain ⟨name', stop'⟩ := found
      rw [hr] at h
      cases h
      obtain ⟨runs, labels, hs, hname⟩ := ih hr
      obtain ⟨hi, lo, hhi, hlo, hle, ht⟩ :=
        (target?_eq_ok_iff octets runStart index (by simp [hlength, hp]) _).1 htarget
      exact ⟨target :: runs, labels, .pointer hhi hlo hle ht hlt hs, hname⟩
  | case4 => cases h
  | case5 => cases h
  | case6 runStart index done hle hlength hp hlong =>
    cases h
    refine ⟨[], [], .null hlength, by simp [encodeLabels], ?_⟩
    simp only [List.length_append, List.length_singleton]
    omega
  | case7 => cases h
  | case8 => cases h
  | case9 runStart index done length hlength hp hlong h0 next hnext hle =>
    rename_i ih
    obtain ⟨runs, labels, hs, hname, hlen⟩ := ih h
    replace hs : Spelled octets runStart (index + (length.toNat + 1)) runs labels stop := hs
    replace hname : name.wire = done ++ (octets.extract index (index + length.toNat + 1)).toList ++ encodeLabels labels :=
      hname
    have hslice : octets.slice? (index + 1) length.toNat =
        some (octets.extract (index + 1) (index + 1 + length.toNat)).toList :=
      (slice?_eq_some_iff _ _ _ _).2 ⟨by omega, rfl⟩
    generalize (octets.extract (index + 1) (index + 1 + length.toNat)).toList = label at hslice
    have hl := length_of_slice? hslice
    have hn : length = UInt8.ofNat label.length := by rw [hl, UInt8.ofNat_toNat]
    have hv : ValidLabel label := by
      refine ⟨fun he => h0 ?_, by omega⟩
      rw [hn, he]
      rfl
    rw [← hl] at hslice hs hname
    rw [hn] at hlength
    refine ⟨runs, label :: labels, .label hv hlength hslice hs, ?_, hlen⟩
    rw [hname, extract_label hlength hslice]
    simp [encodeLabels]

/-- A name is read iff it is spelled and not too long. -/
theorem readFrom_ok_iff (octets : Octets) (runStart index : Nat) (done : List UInt8) (name : Name) (stop : Nat) :
    Compressed.readFrom octets runStart index done = .ok (name, stop) ↔
      ∃ runs labels, Spelled octets runStart index runs labels stop ∧ name.wire = done ++ encodeLabels labels ∧
        name.wire.length ≤ maxWireLength := by
  constructor
  · exact spelled_of_readFrom
  · rintro ⟨runs, labels, hs, hname, hlen⟩
    obtain ⟨wire⟩ := name
    dsimp only at hname hlen
    subst hname
    exact hs.readFrom done hlen

/-! ## What a spelling depends on -/

/-- A place spells at most one name. -/
theorem Spelled.unique {octets : Octets} {runStart index : Nat} {runs runs' : List Nat}
    {labels labels' : List (List UInt8)} {stop stop' : Nat} (h : Spelled octets runStart index runs labels stop)
    (h' : Spelled octets runStart index runs' labels' stop') : runs = runs' ∧ labels = labels' ∧ stop = stop' := by
  induction h generalizing runs' labels' stop' with
  | null h0 =>
    cases h' with
    | null _ => exact ⟨rfl, rfl, rfl⟩
    | pointer hhi _ hle _ _ _ =>
      rw [h0] at hhi
      cases hhi
      simp at hle
    | label hv hn _ _ =>
      rw [h0] at hn
      exact absurd (Option.some.inj hn).symm (label_octet hv).2
  | @pointer runStart index target hi lo runs labels stop hhi hlo hle ht hlt _ ih =>
    cases h' with
    | null h0 =>
      rw [h0] at hhi
      cases hhi
      simp at hle
    | pointer hhi' hlo' _ ht' _ hs' =>
      rw [hhi] at hhi'
      rw [hlo] at hlo'
      cases hhi'
      cases hlo'
      rw [← ht] at ht'
      subst ht'
      obtain ⟨hr, hl, -⟩ := ih hs'
      exact ⟨by rw [hr], hl, rfl⟩
    | label hv hn _ _ =>
      rw [hhi] at hn
      cases hn
      have := (isPointer_iff _).2 hle
      rw [(label_octet hv).1] at this
      cases this
  | @label runStart index label runs labels stop hv hn hs _ ih =>
    cases h' with
    | null h0 =>
      rw [h0] at hn
      exact absurd (Option.some.inj hn).symm (label_octet hv).2
    | pointer hhi _ hle _ _ _ =>
      rw [hn] at hhi
      cases hhi
      have := (isPointer_iff _).2 hle
      rw [(label_octet hv).1] at this
      cases this
    | @label _ _ label' _ _ _ hv' hn' hs' hrest' =>
      have hlen : label'.length = label.length := by
        rw [← toNat_length hv, ← toNat_length hv', ← Option.some.inj (hn.symm.trans hn')]
      rw [hlen] at hs' hrest'
      have heq : label' = label := Option.some.inj (hs'.symm.trans hs)
      obtain ⟨hr, hl, hstop⟩ := ih hrest'
      exact ⟨hr, by rw [hl, heq], hstop⟩

/-- The labels of a spelling are valid. -/
theorem Spelled.valid {octets : Octets} {runStart index : Nat} {runs : List Nat} {labels : List (List UInt8)}
    {stop : Nat} (h : Spelled octets runStart index runs labels stop) : ∀ l ∈ labels, ValidLabel l := by
  induction h with
  | null _ => simp
  | pointer _ _ _ _ _ _ ih => exact ih
  | label hv _ _ _ ih => exact List.forall_mem_cons.2 ⟨hv, ih⟩

/-- A run ends behind its start, and inside the message. -/
theorem Spelled.stop_le {octets : Octets} {runStart index : Nat} {runs : List Nat} {labels : List (List UInt8)}
    {stop : Nat} (h : Spelled octets runStart index runs labels stop) : index < stop ∧ stop ≤ octets.size := by
  induction h with
  | null h => exact ⟨Nat.lt_succ_self _, (Array.getElem?_eq_some_iff.1 h).1⟩
  | pointer _ hlo _ _ _ _ _ => exact ⟨by omega, (Array.getElem?_eq_some_iff.1 hlo).1⟩
  | label _ _ _ _ ih => exact ⟨by omega, ih.2⟩

/-- A message that agrees with another one from a place on spells the same there, as long as no run starts in front of that
place. -/
theorem Spelled.congr {octets octets' : Octets} {bound : Nat} (hsize : octets'.size = octets.size)
    (hagree : ∀ k, bound ≤ k → octets'[k]? = octets[k]?) {runStart index : Nat} {runs : List Nat}
    {labels : List (List UInt8)} {stop : Nat} (h : Spelled octets runStart index runs labels stop)
    (hindex : bound ≤ index) (hruns : ∀ t ∈ runs, bound ≤ t) : Spelled octets' runStart index runs labels stop := by
  induction h with
  | null h =>
    exact .null (by rw [hagree _ hindex, h])
  | pointer hhi hlo hle ht hlt _ ih =>
    obtain ⟨htarget, hruns⟩ := List.forall_mem_cons.1 hruns
    exact .pointer (by rw [hagree _ hindex, hhi]) (by rw [hagree _ (by omega), hlo]) hle ht hlt (ih htarget hruns)
  | @label runStart index label runs labels stop hv hn hs _ ih =>
    refine .label hv (by rw [hagree _ hindex, hn]) ?_ (ih (by omega) hruns)
    obtain ⟨hle, hlabel⟩ := (slice?_eq_some_iff _ _ _ _).1 hs
    refine (slice?_eq_some_iff _ _ _ _).2 ⟨by omega, ?_⟩
    have hextract : octets'.extract (index + 1) (index + 1 + label.length) =
        octets.extract (index + 1) (index + 1 + label.length) := by
      refine Array.ext_getElem? fun k => ?_
      rw [Array.getElem?_extract, Array.getElem?_extract, hsize, hagree _ (by omega)]
    rw [hextract, hlabel]

/-- A run never starts at, nor goes on to, an octet that is neither the length of a label nor the first of a pointer. -/
theorem Spelled.octet_ne {octets : Octets} {runStart index : Nat} {runs : List Nat} {labels : List (List UInt8)}
    {stop : Nat} (h : Spelled octets runStart index runs labels stop) :
    octets[index]? ≠ some 64 ∧ ∀ t ∈ runs, octets[t]? ≠ some 64 := by
  induction h with
  | null h =>
    rw [h]
    exact ⟨nofun, nofun⟩
  | pointer hhi _ hle _ _ _ ih =>
    refine ⟨fun he => ?_, List.forall_mem_cons.2 ih⟩
    rw [hhi] at he
    cases he
    simp at hle
  | label hv hn _ _ ih =>
    refine ⟨fun he => ?_, ih.2⟩
    have hlen := toNat_length hv
    have hle : _ ≤ 63 := hv.2
    rw [Option.some.inj (hn.symm.trans he)] at hlen
    simp at hlen
    omega

/-! ## The id -/

/-- No run of the name spelled at a place starts in the id, the first two octets of the message. -/
def AvoidsId (octets : Octets) (start : Nat) : Prop :=
  ∀ runs labels stop, Spelled octets start start runs labels stop → ∀ t ∈ runs, 2 ≤ t

section Id

variable {octets octets' : Octets} {start : Nat} {name : Name} {stop : Nat}

/-- A name that avoids the id reads the same under another id. -/
theorem AvoidsId.readFrom (h : AvoidsId octets start) (hsize : octets'.size = octets.size)
    (hagree : ∀ k, 2 ≤ k → octets'[k]? = octets[k]?) (hstart : 2 ≤ start)
    (hread : Compressed.readFrom octets start start [] = .ok (name, stop)) :
    Compressed.readFrom octets' start start [] = .ok (name, stop) := by
  obtain ⟨runs, labels, hs, hname⟩ := (readFrom_ok_iff _ _ _ _ _ _).1 hread
  exact (readFrom_ok_iff _ _ _ _ _ _).2 ⟨runs, labels, hs.congr hsize hagree hstart (h runs labels stop hs), hname⟩

/-- A name that is read under an id at whose octets no run can start avoids the id, and reads the same under another id. -/
theorem avoidsId_of_readFrom (hsize : octets'.size = octets.size) (hagree : ∀ k, 2 ≤ k → octets'[k]? = octets[k]?)
    (hstart : 2 ≤ start) (h0 : octets'[0]? = some 64) (h1 : octets'[1]? = some 64)
    (hread : Compressed.readFrom octets' start start [] = .ok (name, stop)) :
    AvoidsId octets start ∧ Compressed.readFrom octets start start [] = .ok (name, stop) := by
  obtain ⟨runs, labels, hs, hname⟩ := (readFrom_ok_iff _ _ _ _ _ _).1 hread
  have hruns : ∀ t ∈ runs, 2 ≤ t := by
    intro t ht
    by_contra hlt
    have hne := hs.octet_ne.2 t ht
    have ht01 : t = 0 ∨ t = 1 := by omega
    rcases ht01 with rfl | rfl
    · exact hne h0
    · exact hne h1
  have hs' : Spelled octets start start runs labels stop :=
    hs.congr hsize.symm (fun k hk => (hagree k hk).symm) hstart hruns
  refine ⟨fun runs' labels' stop' hs'' => ?_, (readFrom_ok_iff _ _ _ _ _ _).2 ⟨runs, labels, hs', hname⟩⟩
  obtain ⟨rfl, -, -⟩ := hs'.unique hs''
  exact hruns

end Id

/-! ## Uncompressed names -/

/-- A label stands in a message with its length in front of it. -/
theorem slice?_encodeLabel (octets : Octets) (start : Nat) (label : List UInt8) :
    octets.slice? start (encodeLabel label).length = some (encodeLabel label) ↔
      octets[start]? = some (UInt8.ofNat label.length) ∧ octets.slice? (start + 1) label.length = some label := by
  have he : encodeLabel label = [UInt8.ofNat label.length] ++ label := rfl
  rw [he, slice?_append octets start, slice?_eq_some_iff_getElem? _ _ (by simp)]
  simp

/-- A name without a pointer stands in the message as it is. -/
theorem spelled_nil_iff (octets : Octets) (runStart start : Nat) (labels : List (List UInt8)) (stop : Nat) :
    Spelled octets runStart start [] labels stop ↔ (∀ l ∈ labels, ValidLabel l) ∧
      stop = start + (encodeLabels labels).length ∧
      octets.slice? start (encodeLabels labels).length = some (encodeLabels labels) := by
  induction labels generalizing start with
  | nil =>
    have he : encodeLabels [] = [0] := rfl
    rw [he, slice?_eq_some_iff_getElem? _ _ (by simp)]
    constructor
    · intro h
      cases h with
      | null h => simpa using h
    · rintro ⟨-, rfl, h⟩
      exact .null (by simpa using h)
  | cons label labels ih =>
    have hlen : (encodeLabels (label :: labels)).length = label.length + 1 + (encodeLabels labels).length := by
      simp only [encodeLabels_cons, encodeLabel, List.length_append, List.length_cons]
    rw [encodeLabels_cons, slice?_append octets start, ← encodeLabels_cons, hlen]
    constructor
    · intro h
      cases h with
      | label hv hn hs hrest =>
        obtain ⟨hvalid, hstop, hslice⟩ := (ih _).1 hrest
        exact ⟨List.forall_mem_cons.2 ⟨hv, hvalid⟩, by omega, (slice?_encodeLabel octets start _).2 ⟨hn, hs⟩, hslice⟩
    · rintro ⟨hvalid, hstop, hlabel, hslice⟩
      obtain ⟨hv, hvalid⟩ := List.forall_mem_cons.1 hvalid
      obtain ⟨hn, hs⟩ := (slice?_encodeLabel octets start _).1 hlabel
      exact .label hv hn hs ((ih _).2 ⟨hvalid, by omega, hslice⟩)

/-- Labels do not take two octets on the wire: none take one, and any others at least three. -/
theorem length_encodeLabels_ne_two {labels : List (List UInt8)} (hv : ∀ l ∈ labels, ValidLabel l) :
    (encodeLabels labels).length ≠ 2 := by
  cases labels with
  | nil => decide
  | cons label labels =>
    have hlabel : 0 < label.length := List.length_pos_iff.2 (hv label List.mem_cons_self).1
    have hrest : 0 < (encodeLabels labels).length := List.length_pos_iff.2 (encodeLabels_ne_nil labels)
    simp only [encodeLabels_cons, encodeLabel, List.length_append, List.length_cons]
    omega

/-- A name takes up as many octets as it has on the wire iff no pointer is on its way: a pointer takes two, and what it stands for
never does. -/
theorem Spelled.stop_eq_iff {octets : Octets} {runStart index : Nat} {runs : List Nat} {labels : List (List UInt8)} {stop : Nat}
    (h : Spelled octets runStart index runs labels stop) : stop = index + (encodeLabels labels).length ↔ runs = [] := by
  induction h with
  | null => simp [encodeLabels]
  | pointer _ _ _ _ _ hs _ =>
    have hne := length_encodeLabels_ne_two hs.valid
    simp only [reduceCtorEq, iff_false]
    omega
  | label _ _ _ _ ih =>
    rw [← ih]
    simp only [encodeLabels_cons, encodeLabel, List.length_append, List.length_cons]
    omega

end DnsRelay.Name
