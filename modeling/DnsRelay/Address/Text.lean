import DnsRelay.Address.Basic
import DnsRelay.Numeral

/-!
# The text of addresses

Readers take as much of a list of characters as belongs to what they read and give back the rest; the functions ending
in `ofString?` want the whole text. Addresses of 128 bits are written with their longest run of two or more zero groups
left out.
-/

namespace DnsRelay

namespace Address.Text

open Numeral

/-- One of the four numbers of an address: no more than three digits, and none in front of a zero too many. -/
def part? (cs : List Char) : Option (Nat × List Char) :=
  let (ds, rest) := digits 10 cs
  if ds = [] || 3 < ds.length || (ds.head? = some 0 && 1 < ds.length) || 255 < value 10 ds then none
  else some (value 10 ds, rest)

/-- A character that has to come next. -/
def char? (c : Char) : List Char → Option (List Char)
  | d :: rest => if c = d then some rest else none
  | [] => none

/-- Four numbers with dots between them. -/
def v4? (cs : List Char) : Option (BitVec 32 × List Char) := do
  let (a, cs) ← part? cs
  let (b, cs) ← char? '.' cs >>= part?
  let (c, cs) ← char? '.' cs >>= part?
  let (d, cs) ← char? '.' cs >>= part?
  return (BitVec.ofNat 32 (((a * 256 + b) * 256 + c) * 256 + d), cs)

/-- A group of at most four hexadecimal digits. -/
def group? (cs : List Char) : Option (Nat × List Char) :=
  let (ds, rest) := digits 16 cs
  if ds = [] || 4 < ds.length then none else some (value 16 ds, rest)

/-- Up to `room` groups with colons between them, the last two of which may be written as four numbers with dots. The
answer holds the groups, whether they end in such numbers, and the rest. -/
def groups (first : Bool) : Nat → List Char → List Nat × Bool × List Char
  | 0, cs => ([], false, cs)
  | room + 1, cs =>
    match if first then some cs else char? ':' cs with
    | none => ([], false, cs)
    | some body =>
      match if room = 0 then none else v4? body with
      | some (bits, rest) => ([bits.toNat / 65536, bits.toNat % 65536], true, rest)
      | none =>
        match group? body with
        | none => ([], false, cs)
        | some (g, rest) =>
          let (gs, dotted, rest) := groups false room rest
          (g :: gs, dotted, rest)

/-- The address that eight groups stand for. -/
def ofGroups (gs : List Nat) : BitVec 128 :=
  BitVec.ofNat 128 (gs.foldl (fun n g => n * 65536 + g) 0)

/-- Eight groups, or fewer around one double colon, which stands for at least one zero group. -/
def v6? (cs : List Char) : Option (BitVec 128 × List Char) :=
  let (head, dotted, rest) := groups true 8 cs
  if head.length = 8 then some (ofGroups head, rest)
  else if dotted then none
  else do
    let rest ← char? ':' rest >>= char? ':'
    let (tail, _, rest) := groups true (7 - head.length) rest
    return (ofGroups (head ++ List.replicate (8 - head.length - tail.length) 0 ++ tail), rest)

/-- A text that nothing follows. -/
def whole {α : Type} : Option (α × List Char) → Option α
  | some (x, []) => some x
  | _ => none

/-- The eight groups of an address. -/
def toGroups (bits : BitVec 128) : List Nat :=
  (List.range 8).map fun i => (bits.extractLsb' (16 * (7 - i)) 16).toNat

/-- How many zero groups a list begins with. -/
def leadingZeros : List Nat → Nat
  | 0 :: gs => leadingZeros gs + 1
  | _ => 0

/-- The place and length of the first longest run of zero groups; `start` is the place of the list's first group. -/
def longestZeros (start : Nat) : List Nat → Nat × Nat
  | [] => (start, 0)
  | g :: gs =>
    let here := leadingZeros (g :: gs)
    let later := longestZeros (start + 1) gs
    if later.2 ≤ here then (start, here) else later

/-- A number in small hexadecimal digits. -/
def showGroup (g : Nat) : String :=
  String.ofList (Nat.toDigits 16 g)

/-- Four numbers with dots between them. -/
def showV4 (bits : BitVec 32) : String :=
  let n := bits.toNat
  ".".intercalate ([n / 16777216, n / 65536 % 256, n / 256 % 256, n % 256].map Nat.repr)

/-- Groups with colons between them. -/
def showGroups (gs : List Nat) : String :=
  ":".intercalate (gs.map showGroup)

/-- An address of 128 bits; a mapped one ends in the four numbers of the address inside. -/
def showV6 (bits : BitVec 128) : String :=
  match Address.unmapped? bits with
  | some inner => "::ffff:" ++ showV4 inner
  | none =>
    let gs := toGroups bits
    let (start, length) := longestZeros 0 gs
    if length < 2 then showGroups gs
    else showGroups (gs.take start) ++ "::" ++ showGroups (gs.drop (start + length))

end Address.Text

namespace Address

open Text

/-- Reads an address of either family. -/
def ofString? (text : String) : Option Address :=
  match whole (v4? text.toList) with
  | some bits => some (.v4 bits)
  | none => (whole (v6? text.toList)).map .v6

/-- The text of an address. -/
def toString : Address → String
  | .v4 bits => showV4 bits
  | .v6 bits => showV6 bits

instance : ToString Address := ⟨Address.toString⟩

end Address

namespace Endpoint

open Address.Text

/-- A colon and the number of a service. -/
def number? (cs : List Char) : Option (UInt16 × List Char) := do
  let (n, cs) ← char? ':' cs >>= Numeral.number? 10 65536
  return (UInt16.ofNat n, cs)

/-- A percent sign and a zone, if there is one. -/
def scope (cs : List Char) : UInt32 × List Char :=
  match char? '%' cs >>= Numeral.number? 10 4294967296 with
  | some (n, rest) => (UInt32.ofNat n, rest)
  | none => (0, cs)

/-- An endpoint of the older family. -/
def v4? (cs : List Char) : Option (Endpoint × List Char) := do
  let (bits, cs) ← Address.Text.v4? cs
  let (n, cs) ← number? cs
  return (.v4 bits n, cs)

/-- An endpoint of the newer family, its address in square brackets. A flow label is never written. -/
def v6? (cs : List Char) : Option (Endpoint × List Char) := do
  let (bits, cs) ← char? '[' cs >>= Address.Text.v6?
  let (scope, cs) := scope cs
  let (n, cs) ← char? ']' cs >>= number?
  return (.v6 bits 0 scope n, cs)

/-- Reads an endpoint of either family. -/
def ofString? (text : String) : Option Endpoint :=
  (whole (v4? text.toList)).or (whole (v6? text.toList))

/-- The text of an endpoint. -/
def toString : Endpoint → String
  | .v4 bits n => showV4 bits ++ ":" ++ Nat.repr n.toNat
  | .v6 bits _ scope n =>
    let zone := if scope = 0 then "" else "%" ++ Nat.repr scope.toNat
    "[" ++ showV6 bits ++ zone ++ "]:" ++ Nat.repr n.toNat

instance : ToString Endpoint := ⟨Endpoint.toString⟩

end Endpoint

namespace Network

open Address.Text

/-- The length of a mask whose ones all stand in front of its zeros. -/
def ofMask? (mask : BitVec 32) : Option (Fin 33) :=
  (List.range 33).findSome? fun n =>
    if h : n < 33 then if mask = BitVec.allOnes 32 <<< (32 - n) then some ⟨n, h⟩ else none else none

/-- A number of at most `bound` and 255, with or without a plus sign. -/
def length? (bound : Nat) (cs : List Char) : Option (Fin (bound + 1)) :=
  let cs := match cs with
    | '+' :: rest => rest
    | cs => cs
  match whole (Numeral.number? 10 256 cs) with
  | some n => if h : n < bound + 1 then some ⟨n, h⟩ else none
  | none => none

/-- Reads an address alone, or an address, a slash and how many bits count; for the older family that may be a mask. -/
def ofString? (text : String) : Option Network :=
  match Address.ofString? text with
  | some a => some (single a)
  | none =>
    let cs := text.toList
    let before := cs.takeWhile (· ≠ '/')
    match cs.drop before.length with
    | [] => none
    | _ :: after =>
      match whole (v4? before) with
      | some bits =>
        match whole (v4? after) with
        | some mask => (ofMask? mask).map (.v4 bits)
        | none => (length? 32 after).map (.v4 bits)
      | none => do
        let bits ← whole (v6? before)
        let length ← length? 128 after
        return .v6 bits length

/-- The text of a network: the address it was given by, with all its bits, and how many of them count. -/
def toString : Network → String
  | .v4 bits length => showV4 bits ++ "/" ++ Nat.repr length
  | .v6 bits length => showV6 bits ++ "/" ++ Nat.repr length

instance : ToString Network := ⟨Network.toString⟩

end Network

end DnsRelay
