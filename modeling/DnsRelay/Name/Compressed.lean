import DnsRelay.Name.Basic

/-!
# Compressed names

Inside a message a run of labels may end in a pointer to an earlier place instead of the null label. A pointer has to
lead strictly before the start of the run it ends, so following pointers always comes to an end.
-/

namespace DnsRelay.Name

namespace Compressed

/-- The two top bits of the first octet of a pointer. -/
def isPointer (b : UInt8) : Bool :=
  b &&& 0xc0 == 0xc0

/-- Where the pointer at `index` leads, for a run of labels that starts at `runStart`. -/
def target? (octets : Octets) (runStart index : Nat) : Except NameError { t : Nat // t < runStart } :=
  match octets.u16At? index with
  | none => .error .unexpectedEnd
  | some raw =>
    let target := raw.toNat % 16384
    if h : target < runStart then .ok ⟨target, h⟩ else .error .invalidPointer

/-- Reads on at `index` in the run that starts at `runStart`, with `done` the wire form of the labels read so far.
The result is the whole name and the end of this run. -/
def readFrom (octets : Octets) (runStart index : Nat) (done : List UInt8) : Except NameError (Name × Nat) :=
  match octets[index]? with
  | none => .error .unexpectedEnd
  | some length =>
    if isPointer length then
      match target? octets runStart index with
      | .error e => .error e
      | .ok ⟨target, _⟩ => (readFrom octets target target done).map fun (name, _) => (name, index + 2)
    else if maxLabelLength < length.toNat then .error .labelTooLong
    else if length = 0 then
      if maxWireLength < done.length + 1 then .error .nameTooLong else .ok (⟨done ++ [0]⟩, index + 1)
    else
      let next := index + length.toNat + 1
      if octets.size ≤ next then .error .unexpectedEnd
      else if maxWireLength < done.length + (length.toNat + 1) then .error .nameTooLong
      else readFrom octets runStart next (done ++ (octets.extract index next).toList)
termination_by (runStart, octets.size - index)
decreasing_by
  · exact Prod.Lex.left _ _ (by assumption)
  · exact Prod.Lex.right _ (by omega)

end Compressed

/-- Reads the possibly compressed name at `start` of a message: the name, and how many octets it takes up there. -/
def decode? (octets : Octets) (start : Nat) : Except NameError (Name × Nat) :=
  (Compressed.readFrom octets start start []).map fun (name, stop) => (name, stop - start)

end DnsRelay.Name
