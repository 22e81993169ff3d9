import DnsRelay.Octets

/-!
# Domain names

A name is kept in its uncompressed form on the wire: each label after its length, and the null label last. Equality in
the sense of the domain name system ignores the case of ASCII letters (`Name.same`); equality of values (`=`) is
equality octet for octet. `Name.withCase` gives a name another pattern of cases, one choice per letter.
-/

namespace DnsRelay

/-- Why a text or a run of octets is not a name. -/
inductive NameError where
  | invalidEscape
  | invalidPointer
  | labelTooLong
  | nameTooLong
  | nonNullTerminal
  | nullNonTerminal
  | emptyText
  | notAscii
  | unexpectedEnd
  deriving DecidableEq, Repr

/-- The wording of a name error. -/
def NameError.message : NameError → String
  | .invalidEscape => "invalid escape sequence"
  | .invalidPointer => "invalid pointer"
  | .labelTooLong => "label is longer than 63 bytes"
  | .nameTooLong => "name is longer than 255 bytes on the wire"
  | .nonNullTerminal => "last label is not null"
  | .nullNonTerminal => "non-terminal label is null"
  | .emptyText => "string was empty"
  | .notAscii => "string was not ASCII"
  | .unexpectedEnd => "unexpected end of message"

/-- A domain name in its uncompressed form on the wire. -/
structure Name where
  wire : List UInt8
  deriving DecidableEq, Repr

namespace Name

/-- The longest name on the wire. -/
def maxWireLength : Nat := 255

/-- The longest label. -/
def maxLabelLength : Nat := 63

/-- The root of the name space: the null label alone. -/
def root : Name := ⟨[0]⟩

/-- Whether a name is the root. -/
def isRoot (n : Name) : Bool :=
  n.wire.length == 1

/-- A label behind its length. -/
def encodeLabel (label : List UInt8) : List UInt8 :=
  UInt8.ofNat label.length :: label

/-- The wire form of a run of labels, closed by the null label. -/
def encodeLabels (labels : List (List UInt8)) : List UInt8 :=
  labels.flatMap encodeLabel ++ [0]

/-- The labels of a wire form, each read by the length in front of it. -/
def splitLabels : List UInt8 → List (List UInt8)
  | [] => []
  | n :: rest => rest.take n.toNat :: splitLabels (rest.drop n.toNat)
termination_by wire => wire.length
decreasing_by
  simp only [List.length_cons, List.length_drop]
  omega

/-- The labels of a name from left to right, the null label included. -/
def labels (n : Name) : List (List UInt8) :=
  splitLabels n.wire

/-- Labels are read back from their wire form, with the null label behind them. -/
theorem splitLabels_encodeLabels (labels : List (List UInt8)) (h : ∀ l ∈ labels, l.length ≤ maxLabelLength) :
    splitLabels (encodeLabels labels) = labels ++ [[]] := by
  induction labels with
  | nil => simp only [encodeLabels, List.flatMap_nil, List.nil_append, splitLabels, List.take_nil, List.drop_nil]
  | cons l ls ih =>
    have hl : l.length ≤ 63 := h l (List.mem_cons_self)
    have hn : (UInt8.ofNat l.length).toNat = l.length := by
      rw [UInt8.toNat_ofNat']
      omega
    have ih := ih fun l' hl' => h l' (List.mem_cons_of_mem _ hl')
    rw [encodeLabels] at ih
    rw [encodeLabels, List.flatMap_cons, List.append_assoc, encodeLabel, List.cons_append, splitLabels, hn,
      List.take_left, List.drop_left, ih, List.cons_append]

/-- Applies `f` to the octets of a run from left to right, with a state that `f` passes on. -/
def mapOctets {σ : Type} (f : σ → UInt8 → σ × UInt8) : σ → List UInt8 → σ × List UInt8
  | s, [] => (s, [])
  | s, b :: bs =>
    let first := f s b
    let others := mapOctets f first.1 bs
    (others.1, first.2 :: others.2)

/-- Mapping octets keeps their number. -/
theorem length_mapOctets {σ : Type} (f : σ → UInt8 → σ × UInt8) (s : σ) (octets : List UInt8) :
    (mapOctets f s octets).2.length = octets.length := by
  induction octets generalizing s with
  | nil => rfl
  | cons b bs ih => simp only [mapOctets, List.length_cons, ih]

/-- Applies `f` to the octets of the labels of a wire form from left to right; the lengths stay. -/
def mapContents {σ : Type} (f : σ → UInt8 → σ × UInt8) : σ → List UInt8 → σ × List UInt8
  | s, [] => (s, [])
  | s, n :: rest =>
    let contents := mapOctets f s (rest.take n.toNat)
    let others := mapContents f contents.1 (rest.drop n.toNat)
    (others.1, n :: contents.2 ++ others.2)
termination_by _ wire => wire.length
decreasing_by
  simp only [List.length_cons, List.length_drop]
  omega

/-- Mapping the octets of labels keeps the length of the wire form. -/
theorem length_mapContents {σ : Type} (f : σ → UInt8 → σ × UInt8) (s : σ) (wire : List UInt8) :
    (mapContents f s wire).2.length = wire.length := by
  fun_induction mapContents f s wire with
  | case1 => rfl
  | case2 s n rest contents others ih =>
    simp only [List.cons_append, List.length_cons, List.length_append]
    rw [ih]
    simp only [contents, length_mapOctets, List.length_take, List.length_drop]
    omega

/-- The name with every capital letter of its labels made small. -/
def lower (n : Name) : Name :=
  ⟨(mapContents (fun (_ : Unit) b => ((), Octet.lower b)) () n.wire).2⟩

/-- One octet of a label under a pattern of cases: a letter takes the next choice, and its case flips if that is `true`. -/
def flipLetter (flips : Nat → Bool) (used : Nat) (b : UInt8) : Nat × UInt8 :=
  if Octet.isLetter b then (used + 1, if flips used then Octet.flipCase b else b) else (used, b)

/-- The name whose `i`-th letter has its case flipped iff `flips i`, and the number of choices taken: one per letter. -/
def withCase (flips : Nat → Bool) (n : Name) : Nat × Name :=
  let mapped := mapContents (flipLetter flips) 0 n.wire
  (mapped.1, ⟨mapped.2⟩)

/-- Equality of names: the case of ASCII letters does not count. -/
def same (a b : Name) : Bool :=
  sameIgnoringCase a.wire b.wire

/-- What a hash of the name is computed from, so that names that are the same hash alike. -/
def hashInput (n : Name) : List UInt8 :=
  n.wire.map Octet.lower

end Name

end DnsRelay
