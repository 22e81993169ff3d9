import DnsRelay.Toml.Token
import DnsRelay.Toml.Value

/-!
# Documents of settings

A document is a list of lines: headers of tables, and keys with their values. Every reader takes tokens from the front
and gives back the rest. Numbers with a fraction and dates are no settings here, so a document that holds one is refused
like any other that cannot be read.
-/

namespace DnsRelay.Toml

namespace Document

/-- Skips a blank. -/
def skipBlank : List Token → List Token
  | .blank :: rest => rest
  | ts => ts

/-- Skips blanks, comments and line ends. -/
def skipLines : List Token → List Token
  | .blank :: rest | .newline :: rest | .comment :: .newline :: rest => skipLines rest
  | [.comment] => []
  | ts => ts

/-- The end of a line, with a comment in front of it or without. -/
def endLine? (ts : List Token) : Option (List Token) :=
  match skipBlank ts with
  | [] | [.comment] => some []
  | .newline :: rest | .comment :: .newline :: rest => some rest
  | _ => none

/-- A single key. -/
def simpleKey? : List Token → Option (String × List Token)
  | .word key :: rest | .quoted key false :: rest => some (key, rest)
  | _ => none

/-- The keys behind the first one, each behind a period. -/
def moreKeys? : List Token → Option (List String × List Token)
  | .blank :: .period :: .blank :: ts | .blank :: .period :: ts | .period :: .blank :: ts | .period :: ts =>
    match ts with
    | .word key :: rest | .quoted key false :: rest => (moreKeys? rest).map fun (keys, rest) => (key :: keys, rest)
    | _ => none
  | ts => some ([], ts)

/-- Keys with periods between them. -/
def key? (ts : List Token) : Option (List String × List Token) := do
  let (first, ts) ← simpleKey? ts
  let (more, ts) ← moreKeys? ts
  return (first :: more, skipBlank ts)

/-- The digits of an integer, between which single underscores may stand. -/
def digits? (base : Nat) (cs : List Char) : Option (List Nat) :=
  match cs with
  | [] => none
  | [c] => (Numeral.digit? base c).map ([·])
  | c :: '_' :: rest => (Numeral.digit? base c).bind fun d => (digits? base rest).map (d :: ·)
  | c :: rest => (Numeral.digit? base c).bind fun d => (digits? base rest).map (d :: ·)

/-- A decimal number without zeros in front. -/
def decimal? (cs : List Char) : Option Nat :=
  match digits? 10 cs with
  | none => none
  | some ds => if ds.head? = some 0 ∧ ds.length ≠ 1 then none else some (Numeral.value 10 ds)

/-- A number of sixty-four bits with a sign. -/
def fit? (n : Int) : Option Value :=
  if -9223372036854775808 ≤ n ∧ n ≤ 9223372036854775807 then some (.integer n) else none

/-- An integer: decimal with or without a sign, or behind the mark of another base. -/
def integer? (text : String) : Option Value :=
  let inBase (base : Nat) (cs : List Char) := (digits? base cs).bind fun ds => fit? (Numeral.value base ds)
  match text.toList with
  | '0' :: 'x' :: cs => inBase 16 cs
  | '0' :: 'o' :: cs => inBase 8 cs
  | '0' :: 'b' :: cs => inBase 2 cs
  | '-' :: cs => (decimal? cs).bind fun n => fit? (-n)
  | cs => (decimal? cs).bind fun n => fit? n

/-- What a word stands for as a value. -/
def wordValue? (text : String) : Option Value :=
  if text = "true" then some (.boolean true)
  else if text = "false" then some (.boolean false)
  else integer? text

mutual

/-- A value; `depth` bounds how deep values are nested. -/
def value? : (depth : Nat) → List Token → Option (Value × List Token)
  | 0, _ => none
  | depth + 1, ts =>
    match ts with
    | .quoted text _ :: rest => some (.string text, rest)
    | .word text :: rest => (wordValue? text).map (·, rest)
    | .plus :: .word text :: rest => (integer? text).map (·, rest)
    | .leftBracket :: rest => (items? depth rest).map fun (items, rest) => (.array items, rest)
    | .leftBrace :: rest =>
      match skipBlank rest with
      | .rightBrace :: rest => some (.table .braces [], rest)
      | rest => (pairs? depth [] rest).map fun (entries, rest) => (.table .braces entries, rest)
    | _ => none

/-- The values of an array up to its closing bracket; a comma may stand behind the last one. -/
def items? : (depth : Nat) → List Token → Option (List Value × List Token)
  | 0, _ => none
  | depth + 1, ts =>
    match skipLines ts with
    | .rightBracket :: rest => some ([], rest)
    | ts =>
      match value? depth ts with
      | none => none
      | some (value, ts) =>
        match skipLines ts with
        | .comma :: ts => (items? depth ts).map fun (items, rest) => (value :: items, rest)
        | .rightBracket :: rest => some ([value], rest)
        | _ => none

/-- The keys and values of a table in braces up to its closing brace. -/
def pairs? : (depth : Nat) → Entries → List Token → Option (Entries × List Token)
  | 0, _, _ => none
  | depth + 1, entries, ts =>
    match key? ts with
    | some (key, .equals :: ts) =>
      match value? depth (skipBlank ts) with
      | none => none
      | some (value, ts) =>
        match entries.addDotted? value key, skipBlank ts with
        | some entries, .rightBrace :: rest => some (entries, rest)
        | some entries, .comma :: rest => pairs? depth entries (skipBlank rest)
        | _, _ => none
    | _ => none

end

/-- The header of a table: its keys, and whether it adds to an array of tables. -/
def header? (ts : List Token) : Option (List String × Bool × List Token) :=
  match ts with
  | .leftBracket :: .leftBracket :: ts =>
    match key? (skipBlank ts) with
    | some (keys, .rightBracket :: .rightBracket :: rest) => (endLine? rest).map (keys, true, ·)
    | _ => none
  | .leftBracket :: ts =>
    match key? (skipBlank ts) with
    | some (keys, .rightBracket :: rest) => (endLine? rest).map (keys, false, ·)
    | _ => none
  | _ => none

/-- A key and its value on a line. -/
def setting? (ts : List Token) : Option (List String × Value × List Token) :=
  match key? ts with
  | some (keys, .equals :: ts) => do
    let (value, ts) ← value? (2 * ts.length + 2) (skipBlank ts)
    let rest ← endLine? ts
    return (keys, value, rest)
  | _ => none

/-- A document while it is read: the finished entries of its root, and the table whose settings are being read. -/
structure Reading where
  root : Entries
  header : Option (List String × Bool)
  current : Entries

/-- Puts the table that was being read into the document. -/
def Reading.close? (r : Reading) : Option Entries :=
  match r.header with
  | none => some r.current
  | some (keys, array) => r.root.addTable? array r.current keys

/-- Reads lines, of which there are at most `n`. -/
def lines? : (n : Nat) → Reading → List Token → Option Entries
  | 0, _, _ => none
  | n + 1, r, ts =>
    match skipLines ts with
    | [] => r.close?
    | .leftBracket :: ts => do
      let root ← r.close?
      let (keys, array, rest) ← header? (.leftBracket :: ts)
      lines? n ⟨root, some (keys, array), []⟩ rest
    | ts => do
      let (keys, value, rest) ← setting? ts
      let current ← r.current.addDotted? value keys
      lines? n { r with current } rest

/-- The entries of a document. -/
def ofText? (text : String) : Option Entries := do
  let ts ← Token.ofText? text
  lines? (ts.length + 1) ⟨[], none, []⟩ ts

end Document

end DnsRelay.Toml
