import DnsRelay.Name.Basic

/-!
# The text of a name

A name is written label by label, each closed by a dot; the root is a single dot. A backslash takes the next character
as it is, or three digits as the value of an octet. The reader splits the text into units (`Name.Text.tokens`) and then
gathers labels out of them (`Name.Text.gather`), so that of several faults the leftmost is reported.
-/

namespace DnsRelay.Name

namespace Text

/-- A dot. -/
def dot : UInt8 := 0x2e

/-- A backslash. -/
def backslash : UInt8 := 0x5c

/-- What a text consists of: dots that close labels, octets of labels, and a place where it stops being a name. -/
inductive Token where
  | dot
  | unit (value : UInt8)
  | fault (error : NameError)
  deriving DecidableEq, Repr

/-- The octet that an escape sequence stands for and the text after it; the text given starts behind the backslash. -/
def escape? : List UInt8 → Option (UInt8 × List UInt8)
  | [] => none
  | a :: rest =>
    if Octet.isDigit a then
      match rest with
      | b :: c :: rest =>
        let value := 100 * Octet.digitValue a + 10 * Octet.digitValue b + Octet.digitValue c
        if Octet.isDigit b && Octet.isDigit c && value ≤ 255 then some (UInt8.ofNat value, rest) else none
      | _ => none
    else some (a, rest)

theorem escape?_length {text rest : List UInt8} {value : UInt8} (h : escape? text = some (value, rest)) :
    rest.length < text.length := by
  unfold escape? at h
  split at h
  · simp at h
  · split at h
    · split at h
      · dsimp only at h
        split at h
        · simp only [Option.some.injEq, Prod.mk.injEq] at h
          simp [← h.2]
          omega
        · simp at h
      · simp at h
    · simp only [Option.some.injEq, Prod.mk.injEq] at h
      simp [h.2]

/-- The units of a text, up to the first fault. -/
def tokens (text : List UInt8) : List Token :=
  match text with
  | [] => []
  | c :: rest =>
    if c = dot then .dot :: tokens rest
    else if c = backslash then
      match h : escape? rest with
      | some (value, after) =>
        have : after.length < rest.length := escape?_length h
        .unit value :: tokens after
      | none => [.fault .invalidEscape]
    else if c < 0x80 then .unit c :: tokens rest
    else [.fault .notAscii]
termination_by text.length
decreasing_by all_goals simp only [List.length_cons]; omega

/-- Gathers labels: `done` is the wire form of the labels closed so far, `current` the contents of the open one. -/
def gather (done current : List UInt8) : List Token → Except NameError Name
  | [] => if current = [] then .ok ⟨done ++ [0]⟩ else .error .nonNullTerminal
  | .fault e :: _ => .error e
  | .dot :: rest =>
    if current = [] then .error .nullNonTerminal
    else if maxWireLength ≤ done.length + 1 + current.length then .error .nameTooLong
    else gather (done ++ encodeLabel current) [] rest
  | .unit value :: rest =>
    if maxLabelLength ≤ current.length then .error .labelTooLong
    else if maxWireLength ≤ done.length + 1 + current.length then .error .nameTooLong
    else gather done (current ++ [value]) rest

/-- Three decimal digits. -/
def threeDigits (n : Nat) : String :=
  String.ofList [Nat.digitChar (n / 100 % 10), Nat.digitChar (n / 10 % 10), Nat.digitChar (n % 10)]

/-- An octet of a label as text: printing characters as they are, a dot or backslash escaped, the rest by value. -/
def showOctet (b : UInt8) : String :=
  if b = dot || b = backslash then String.ofList ['\\', Char.ofNat b.toNat]
  else if 0x21 ≤ b && b ≤ 0x7e then String.singleton (Char.ofNat b.toNat)
  else "\\" ++ threeDigits b.toNat

/-- A label and the dot that closes it. -/
def showLabel (label : List UInt8) : String :=
  String.join (label.map showOctet) ++ "."

end Text

/-- Reads a name from the octets of its text. -/
def ofOctets? (text : List UInt8) : Except NameError Name :=
  if text = [] then .error .emptyText
  else if text = [Text.dot] then .ok root
  else Text.gather [] [] (Text.tokens text)

/-- Reads a name from its text, seen as UTF-8. -/
def ofString? (text : String) : Except NameError Name :=
  ofOctets? text.toUTF8.toList

/-- The text of a name. -/
def toString (n : Name) : String :=
  if n.isRoot then "." else String.join ((n.labels.filter (· ≠ [])).map Text.showLabel)

instance : ToString Name := ⟨Name.toString⟩

end DnsRelay.Name
