import DnsRelay.Proofs.Name.Case

/-!
# Chains of runs

The grammar of compressed names, said run by run: a `Chain` is a finite number of runs of labels, of which the last one ends in
the null label and every other one in a pointer to a place in front of its own start. The main result, `decode?_exact`, says that
a name is decoded exactly where a chain starts that is not too long, and that no octet past the end is ever taken
(`takeFrom_eq`).
-/

namespace DnsRelay.Name

open Octets

/-- Labels that stand in a message one behind another, each behind its length. -/
inductive Run (octets : Octets) : (start : Nat) → (labels : List (List UInt8)) → (stop : Nat) → Prop where
  | nil (start : Nat) : Run octets start [] start
  | cons {start stop : Nat} {label : List UInt8} {labels : List (List UInt8)} :
      ValidLabel label → octets[start]? = some (UInt8.ofNat label.length) →
      octets.slice? (start + 1) label.length = some label → Run octets (start + (label.length + 1)) labels stop →
      Run octets start (label :: labels) stop

/-- At `place` stands a pointer to `target`: two octets whose two top bits are set, and whose other fourteen bits are the
target. -/
def PointsTo (octets : Octets) (place target : Nat) : Prop :=
  ∃ hi lo, octets[place]? = some hi ∧ octets[place + 1]? = some lo ∧ hi.toNat * 256 + lo.toNat = 0xc000 + target

/-- A chain of runs that starts at `start`, with the labels of all its runs. The first run takes up `size` octets, its null label
or pointer included. -/
inductive Chain (octets : Octets) : (start : Nat) → (labels : List (List UInt8)) → (size : Nat) → Prop where
  | last {start stop : Nat} {labels : List (List UInt8)} :
      Run octets start labels stop → octets[stop]? = some 0 → Chain octets start labels (stop + 1 - start)
  | link {start stop target size : Nat} {labels others : List (List UInt8)} :
      Run octets start labels stop → PointsTo octets stop target → target < start → Chain octets target others size →
      Chain octets start (labels ++ others) (stop + 2 - start)

namespace ChainAux

open CompressedAux

/-- A run is lengthened by the label behind it. -/
theorem Run.snoc {octets : Octets} {start index : Nat} {labels : List (List UInt8)} (h : Run octets start labels index)
    {label : List UInt8} (hv : ValidLabel label) (hn : octets[index]? = some (UInt8.ofNat label.length))
    (hs : octets.slice? (index + 1) label.length = some label) :
    Run octets start (labels ++ [label]) (index + (label.length + 1)) := by
  induction h with
  | nil => exact .cons hv hn hs (.nil _)
  | cons hv' hn' hs' _ ih => exact .cons hv' hn' hs' (ih hn hs)

/-- A run does not end in front of its start. -/
theorem Run.le {octets : Octets} {start stop : Nat} {labels : List (List UInt8)} (h : Run octets start labels stop) :
    start ≤ stop := by
  induction h with
  | nil => exact Nat.le_refl _
  | cons _ _ _ _ ih => omega

/-- A run in front of what is spelled is spelled with it. -/
theorem Run.spelled {octets : Octets} {start index : Nat} {labels : List (List UInt8)} (h : Run octets start labels index)
    {runStart : Nat} {runs : List Nat} {others : List (List UInt8)} {stop : Nat}
    (hs : Spelled octets runStart index runs others stop) : Spelled octets runStart start runs (labels ++ others) stop := by
  induction h with
  | nil => exact hs
  | cons hv hn hl _ ih => exact .label hv hn hl (ih hs)

/-- The two octets of a pointer, as the spelling of a name tells them. -/
theorem pointsTo_iff (octets : Octets) (place target : Nat) :
    PointsTo octets place target ↔ ∃ hi lo, octets[place]? = some hi ∧ octets[place + 1]? = some lo ∧ 192 ≤ hi.toNat ∧
      target = (hi.toNat - 192) * 256 + lo.toNat := by
  constructor
  · rintro ⟨hi, lo, hhi, hlo, h⟩
    have := lo.toNat_lt
    exact ⟨hi, lo, hhi, hlo, by omega, by omega⟩
  · rintro ⟨hi, lo, hhi, hlo, hle, rfl⟩
    exact ⟨hi, lo, hhi, hlo, by omega⟩

/-- What is spelled behind a run is the rest of a chain that starts with this run. -/
theorem chain_of_spelled {octets : Octets} {runStart index : Nat} {runs : List Nat} {labels : List (List UInt8)} {stop : Nat}
    (h : Spelled octets runStart index runs labels stop) {before : List (List UInt8)} (hrun : Run octets runStart before index) :
    Chain octets runStart (before ++ labels) (stop - runStart) := by
  induction h generalizing before with
  | null h0 =>
    rw [List.append_nil]
    exact .last hrun h0
  | pointer hhi hlo hle ht hlt _ ih =>
    exact .link hrun ((pointsTo_iff _ _ _).2 ⟨_, _, hhi, hlo, hle, ht⟩) hlt (ih (.nil _))
  | @label _ _ label _ labels _ hv hn hs _ ih =>
    rw [List.append_cons before label labels]
    exact ih (Run.snoc hrun hv hn hs)

/-- A chain is spelled where it starts, and its first run ends where the spelling does. -/
theorem exists_spelled {octets : Octets} {start size : Nat} {labels : List (List UInt8)} (h : Chain octets start labels size) :
    ∃ runs, Spelled octets start start runs labels (start + size) := by
  induction h with
  | @last start stop labels hrun h0 =>
    have hle := Run.le hrun
    have hnull : Spelled octets start stop [] [] (stop + 1) := .null h0
    have hs := Run.spelled hrun hnull
    rw [List.append_nil] at hs
    exact ⟨[], by rwa [show start + (stop + 1 - start) = stop + 1 by omega]⟩
  | @link start stop target size labels others hrun hp hlt _ ih =>
    have hle := Run.le hrun
    obtain ⟨runs, hs⟩ := ih
    obtain ⟨hi, lo, hhi, hlo, hle', ht⟩ := (pointsTo_iff _ _ _).1 hp
    refine ⟨target :: runs, ?_⟩
    rw [show start + (stop + 2 - start) = stop + 2 by omega]
    exact Run.spelled hrun (.pointer hhi hlo hle' ht hlt hs)

/-- A chain starts where something is spelled. -/
theorem chain_iff (octets : Octets) (start : Nat) (labels : List (List UInt8)) (size : Nat) :
    Chain octets start labels size ↔ ∃ runs stop, Spelled octets start start runs labels stop ∧ size = stop - start := by
  constructor
  · intro h
    obtain ⟨runs, hs⟩ := exists_spelled h
    exact ⟨runs, _, hs, by omega⟩
  · rintro ⟨runs, stop, hs, rfl⟩
    exact chain_of_spelled hs (.nil start)

end ChainAux

/-! ## Octets taken unchecked -/

namespace Compressed

/-- Reads on as `readFrom` does, but takes the octets of a pointer and of a label without asking whether they are there. The
outer `none` is the access past the end that this may come to. -/
def takeFrom (octets : Octets) (runStart index : Nat) (done : List UInt8) : Option (Except NameError (Name × Nat)) :=
  match octets[index]? with
  | none => some (.error .unexpectedEnd)
  | some length =>
    if isPointer length then
      if index + 1 < octets.size then
        match octets.u16At? index with
        | none => none
        | some raw =>
          let target := raw.toNat % 16384
          if target < runStart then
            (takeFrom octets target target done).map fun result => result.map fun (name, _) => (name, index + 2)
          else some (.error .invalidPointer)
      else some (.error .unexpectedEnd)
    else if maxLabelLength < length.toNat then some (.error .labelTooLong)
    else
      let next := index + length.toNat + 1
      if length ≠ 0 ∧ octets.size ≤ next then some (.error .unexpectedEnd)
      else if octets.size < next then none
      else
        let taken := (octets.extract index next).toList
        if maxWireLength < done.length + taken.length then some (.error .nameTooLong)
        else if length = 0 then some (.ok (⟨done ++ taken⟩, next))
        else takeFrom octets runStart next (done ++ taken)
termination_by (runStart, octets.size - index)
decreasing_by
  · exact Prod.Lex.left _ _ (by assumption)
  · exact Prod.Lex.right _ (by omega)

section Step

variable {octets : Octets} {index : Nat} {length : UInt8} (hlength : octets[index]? = some length) (runStart : Nat)
  (done : List UInt8)
include hlength

/-- A pointer is followed. -/
theorem readFrom_pointer (hp : isPointer length = true) : readFrom octets runStart index done =
    match target? octets runStart index with
    | .error e => .error e
    | .ok ⟨target, _⟩ => (readFrom octets target target done).map fun (name, _) => (name, index + 2) := by
  rw [readFrom, hlength]
  exact if_pos hp

/-- What is neither the length of a label nor a pointer is refused. -/
theorem readFrom_long (hp : ¬isPointer length = true) (hlong : maxLabelLength < length.toNat) :
    readFrom octets runStart index done = .error .labelTooLong := by
  rw [readFrom, hlength]
  exact (if_neg hp).trans (if_pos hlong)

/-- The null label ends a name. -/
theorem readFrom_null (h0 : length = 0) : readFrom octets runStart index done =
    if maxWireLength < done.length + 1 then .error .nameTooLong else .ok (⟨done ++ [0]⟩, index + 1) := by
  subst h0
  rw [readFrom, hlength]
  rfl

/-- A label is read if it ends in front of the end and the name is not too long with it. -/
theorem readFrom_label (hp : ¬isPointer length = true) (hlong : ¬maxLabelLength < length.toNat) (h0 : length ≠ 0) :
    readFrom octets runStart index done =
      if octets.size ≤ index + length.toNat + 1 then .error .unexpectedEnd
      else if maxWireLength < done.length + (length.toNat + 1) then .error .nameTooLong
      else readFrom octets runStart (index + length.toNat + 1)
        (done ++ (octets.extract index (index + length.toNat + 1)).toList) := by
  rw [readFrom, hlength]
  exact (if_neg hp).trans ((if_neg hlong).trans (if_neg h0))

end Step

/-- The octets from a place up to one that is not past the end are as many as there are places. -/
theorem length_taken {octets : Octets} {index n : Nat} (h : ¬octets.size < index + n + 1) :
    (octets.extract index (index + n + 1)).toList.length = n + 1 := by
  rw [Array.length_toList, Array.size_extract]
  omega

/-- Whatever is read, no octet past the end is taken. -/
theorem takeFrom_eq (octets : Octets) (runStart index : Nat) (done : List UInt8) :
    takeFrom octets runStart index done = some (readFrom octets runStart index done) := by
  fun_induction takeFrom octets runStart index done with
  | case1 runStart index done hnone =>
    rw [readFrom, hnone]
  | case2 runStart index done length hlength hp hlt hnone =>
    rw [u16At?, hlength, Array.getElem?_eq_getElem hlt] at hnone
    cases hnone
  | case3 runStart index done length hlength hp hlt raw hraw target htarget ih =>
    have ht : target? octets runStart index = .ok ⟨target, htarget⟩ := by
      rw [target?, hraw]
      exact dif_pos htarget
    rw [ih, readFrom_pointer hlength runStart done hp, ht]
    rfl
  | case4 runStart index done length hlength hp hlt raw hraw target htarget =>
    have ht : target? octets runStart index = .error .invalidPointer := by
      rw [target?, hraw]
      exact dif_neg htarget
    rw [readFrom_pointer hlength runStart done hp, ht]
  | case5 runStart index done length hlength hp hlt =>
    have ht : target? octets runStart index = .error .unexpectedEnd := by
      rw [target?, u16At?, hlength, Array.getElem?_eq_none (Nat.not_lt.1 hlt)]
    rw [readFrom_pointer hlength runStart done hp, ht]
  | case6 runStart index done length hlength hp hlong =>
    rw [readFrom_long hlength runStart done hp hlong]
  | case7 runStart index done length hlength hp hlong next hend =>
    rw [readFrom_label hlength runStart done hp hlong hend.1, if_pos hend.2]
  | case8 runStart index done length hlength hp hlong next hend hpast =>
    -- the null label is the octet that was looked at, and every other label ends in front of the end
    have hlt : index < octets.size := (Array.getElem?_eq_some_iff.1 hlength).1
    have h0 : length = 0 := by
      by_contra h0
      exact hend ⟨h0, Nat.le_of_lt hpast⟩
    have hnext : next = index + 1 := by
      simp only [next, h0]
      rfl
    omega
  | case9 runStart index done length hlength hp hlong next hend hpast taken htoo =>
    rw [length_taken hpast] at htoo
    by_cases h0 : length = 0
    · rw [readFrom_null hlength runStart done h0, if_pos (by simpa [h0] using htoo)]
    · have hfits : ¬octets.size ≤ next := fun hle => hend ⟨h0, hle⟩
      rw [readFrom_label hlength runStart done hp hlong h0, if_neg hfits, if_pos htoo]
  | case10 runStart index done hlength hp hlong next hend hpast taken hfits =>
    have htaken : taken = [0] := by
      have hb := extract_cons hlength 0
      simpa [taken, next] using hb
    rw [htaken] at hfits ⊢
    rw [readFrom_null hlength runStart done rfl]
    exact congrArg some (if_neg hfits).symm
  | case11 runStart index done length hlength hp hlong next hend hpast taken hfits h0 ih =>
    have hin : ¬octets.size ≤ next := fun hle => hend ⟨h0, hle⟩
    rw [length_taken hpast] at hfits
    rw [ih, readFrom_label hlength runStart done hp hlong h0, if_neg hin, if_neg hfits]

end Compressed

/-- Decodes a name as `decode?` does, but takes octets unchecked. -/
def take? (octets : Octets) (start : Nat) : Option (Except NameError (Name × Nat)) :=
  (Compressed.takeFrom octets start start []).map fun result => result.map fun (name, stop) => (name, stop - start)

/-- A name is decoded iff it is read, and takes up the octets of its first run. -/
theorem decode?_eq_ok_iff (octets : Octets) (start : Nat) (name : Name) (size : Nat) :
    decode? octets start = .ok (name, size) ↔
      ∃ stop, Compressed.readFrom octets start start [] = .ok (name, stop) ∧ size = stop - start := by
  unfold decode?
  cases Compressed.readFrom octets start start [] with
  | error e => simp [Except.map]
  | ok found =>
    obtain ⟨name', stop⟩ := found
    simp only [Except.map, Except.ok.injEq, Prod.mk.injEq]
    constructor
    · rintro ⟨rfl, rfl⟩
      exact ⟨stop, ⟨rfl, rfl⟩, rfl⟩
    · rintro ⟨_, ⟨rfl, rfl⟩, rfl⟩
      exact ⟨rfl, rfl⟩

/-- A name is decoded and takes up as many octets as it has iff it is valid and stands there as it is, without a pointer. -/
theorem decode?_whole_iff (octets : Octets) (start : Nat) (n : Name) :
    decode? octets start = .ok (n, n.wire.length) ↔ n.Valid ∧ octets.slice? start n.wire.length = some n.wire := by
  rw [decode?_eq_ok_iff]
  constructor
  · rintro ⟨stop, hread, hsize⟩
    obtain ⟨runs, labels, hs, hw, hlen⟩ := (readFrom_ok_iff _ _ _ _ _ _).1 hread
    rw [List.nil_append] at hw
    have hlt := hs.stop_le.1
    obtain rfl : runs = [] := hs.stop_eq_iff.1 (by rw [← hw]; omega)
    obtain ⟨hv, -, hslice⟩ := (spelled_nil_iff _ _ _ _ _).1 hs
    rw [← hw] at hslice
    exact ⟨⟨labels, hv, hw, hlen⟩, hslice⟩
  · rintro ⟨⟨labels, hv, hw, hlen⟩, hslice⟩
    have hs : Spelled octets start start [] labels (start + n.wire.length) := by
      refine (spelled_nil_iff _ _ _ _ _).2 ⟨hv, by rw [hw], ?_⟩
      rwa [← hw]
    have hread : Compressed.readFrom octets start start [] = .ok (n, start + n.wire.length) :=
      (readFrom_ok_iff _ _ _ _ _ _).2 ⟨[], labels, hs, hw, hlen⟩
    exact ⟨_, hread, (Nat.add_sub_cancel_left _ _).symm⟩

open ChainAux in
/-- A name is decoded at a place iff a chain of runs starts there whose labels, each behind its length and with the null label
at the end, take at most 255 octets. The name is these octets, and takes up the first run. Where there is no such chain, there
is an error. What a name takes up lies in the message, and decoding never takes an octet past the end. -/
theorem decode?_exact (octets : Octets) (start : Nat) :
    (∀ name size, decode? octets start = .ok (name, size) ↔ ∃ labels, Chain octets start labels size ∧
      name.wire = encodeLabels labels ∧ (encodeLabels labels).length ≤ 255) ∧
    (∀ name size, decode? octets start = .ok (name, size) → start + size ≤ octets.size) ∧
    ((¬∃ labels size, Chain octets start labels size ∧ (encodeLabels labels).length ≤ 255) →
      ∃ e, decode? octets start = .error e) ∧
    take? octets start = some (decode? octets start) := by
  have hok : ∀ name size, decode? octets start = .ok (name, size) ↔ ∃ labels, Chain octets start labels size ∧
      name.wire = encodeLabels labels ∧ (encodeLabels labels).length ≤ 255 := by
    intro name size
    simp only [decode?_eq_ok_iff, readFrom_ok_iff, chain_iff, List.nil_append]
    constructor
    · rintro ⟨stop, ⟨runs, labels, hs, hw, hlen⟩, rfl⟩
      exact ⟨labels, ⟨runs, stop, hs, rfl⟩, hw, hw ▸ hlen⟩
    · rintro ⟨labels, ⟨runs, stop, hs, rfl⟩, hw, hlen⟩
      exact ⟨stop, ⟨runs, labels, hs, hw, hw ▸ hlen⟩, rfl⟩
  refine ⟨hok, ?_, ?_, ?_⟩
  · intro name size h
    obtain ⟨labels, hchain, -⟩ := (hok name size).1 h
    obtain ⟨runs, hs⟩ := exists_spelled hchain
    exact hs.stop_le.2
  · intro hnone
    cases h : decode? octets start with
    | error e => exact ⟨e, rfl⟩
    | ok found =>
      obtain ⟨labels, hchain, -, hlen⟩ := (hok found.1 found.2).1 h
      exact absurd ⟨labels, found.2, hchain, hlen⟩ hnone
  · rw [take?, Compressed.takeFrom_eq]
    rfl

end DnsRelay.Name
