import DnsRelay.Numeral

/-!
# Tokens of settings

The text of settings splits into tokens: marks, words, quoted strings, comments, blanks and line ends. A basic string
stands between double quotes and knows escapes, a literal one stands between single quotes and knows none; three quotes
instead of one let a string run over several lines.
-/

namespace DnsRelay.Toml

/-- What the text of settings consists of. -/
inductive Token where
  | newline
  | blank
  | comment
  | equals
  | period
  | comma
  | colon
  | plus
  | leftBrace
  | rightBrace
  | leftBracket
  | rightBracket
  | word (text : String)
  | quoted (text : String) (multiline : Bool)
  deriving DecidableEq, Repr

namespace Token

def doubleQuote : Char := Char.ofNat 0x22
def singleQuote : Char := Char.ofNat 0x27
def backslash : Char := Char.ofNat 0x5c
def tab : Char := Char.ofNat 0x09
def lineFeed : Char := Char.ofNat 0x0a
def carriageReturn : Char := Char.ofNat 0x0d

/-- The tokens that are a single character. -/
def marks : List (Char × Token) :=
  [(lineFeed, newline), ('=', equals), ('.', period), (',', comma), (':', colon), ('+', plus),
    (Char.ofNat 0x7b, leftBrace), (Char.ofNat 0x7d, rightBrace), ('[', leftBracket), (']', rightBracket)]

/-- A space or a tab. -/
def isBlank (c : Char) : Bool :=
  c = ' ' || c = tab

/-- What words are made of. -/
def isWordChar (c : Char) : Bool :=
  'A' ≤ c && c ≤ 'Z' || 'a' ≤ c && c ≤ 'z' || '0' ≤ c && c ≤ '9' || c = '-' || c = '_'

/-- What may stand in a comment. -/
def isCommentChar (c : Char) : Bool :=
  c = tab || ' ' ≤ c

/-- What may stand in a string as it is. -/
def isPlain (c : Char) : Bool :=
  c = tab || ' ' ≤ c && c ≠ Char.ofNat 0x7f

/-- The escapes that stand for a single character. -/
def escapes : List (Char × Char) :=
  [(doubleQuote, doubleQuote), (backslash, backslash), ('b', Char.ofNat 0x08), ('f', Char.ofNat 0x0c),
    ('n', lineFeed), ('r', carriageReturn), ('t', tab)]

/-- A character given by `n` hexadecimal digits. -/
def codePoint? (n : Nat) (cs : List Char) : Option (List Char × List Char) :=
  match (cs.take n).mapM (Numeral.digit? 16) with
  | none => none
  | some ds =>
    let code := Numeral.value 16 ds
    if ds.length = n ∧ code.isValidChar then some ([Char.ofNat code], cs.drop n) else none

/-- The blanks and line ends that a backslash at the end of a line takes away. -/
def skipLineEnd? (cs : List Char) : Option (List Char × List Char) :=
  match cs.dropWhile isBlank with
  | [] => some ([], [])
  | c :: rest => if c = lineFeed then some ([], rest.dropWhile fun c => isBlank c || c = lineFeed) else none

/-- What an escape stands for and the text behind it; the text given starts behind the backslash. -/
def escape? (multiline : Bool) : List Char → Option (List Char × List Char)
  | [] => none
  | c :: rest =>
    match escapes.lookup c with
    | some e => some ([e], rest)
    | none =>
      if c = 'u' then codePoint? 4 rest
      else if c = 'U' then codePoint? 8 rest
      else if multiline && (isBlank c || c = lineFeed) then skipLineEnd? (c :: rest)
      else none

theorem length_dropWhile_le {α : Type} (p : α → Bool) (xs : List α) : (xs.dropWhile p).length ≤ xs.length :=
  (List.dropWhile_sublist p).length_le

theorem escape?_length {multiline : Bool} {cs out rest : List Char} (h : escape? multiline cs = some (out, rest)) :
    rest.length ≤ cs.length := by
  have hex : ∀ (n : Nat) (xs : List Char), codePoint? n xs = some (out, rest) → rest.length ≤ xs.length := by
    intro n xs hx
    unfold codePoint? at hx
    split at hx
    · simp at hx
    · dsimp only at hx
      split at hx
      · simp only [Option.some.injEq, Prod.mk.injEq] at hx
        rw [← hx.2, List.length_drop]
        omega
      · simp at hx
  unfold escape? at h
  split at h
  · simp at h
  · rename_i c tail
    simp only [List.length_cons]
    split at h
    · simp only [Option.some.injEq, Prod.mk.injEq] at h
      rw [← h.2]
      omega
    · split at h
      · have := hex _ _ h
        omega
      · split at h
        · have := hex _ _ h
          omega
        · split at h
          · unfold skipLineEnd? at h
            have hle := length_dropWhile_le isBlank (c :: tail)
            simp only [List.length_cons] at hle
            split at h
            · simp only [Option.some.injEq, Prod.mk.injEq] at h
              simp [← h.2]
            · rename_i d after hd
              rw [hd, List.length_cons] at hle
              split at h
              · simp only [Option.some.injEq, Prod.mk.injEq] at h
                have := length_dropWhile_le (fun c => isBlank c || c = lineFeed) after
                rw [← h.2]
                omega
              · simp at h
          · simp at h

/-- How many quotes a text begins with. -/
def quoteRun (quote : Char) (cs : List Char) : Nat :=
  (cs.takeWhile (· = quote)).length

/-- The contents of a string and the text behind its closing quotes. Of more than three closing quotes up to two belong
to the contents. -/
def contents? (quote : Char) (multiline : Bool) (cs : List Char) : Option (List Char × List Char) :=
  match cs with
  | [] => none
  | c :: rest =>
    if c = quote then
      if multiline then
        let run := quoteRun quote rest
        if 2 ≤ run then
          let kept := min (run - 2) 2
          some (List.replicate kept quote, rest.drop (2 + kept))
        else (contents? quote multiline (rest.drop run)).map fun (out, after) =>
          (List.replicate (run + 1) quote ++ out, after)
      else some ([], rest)
    else if c = backslash ∧ quote = doubleQuote then
      match h : escape? multiline rest with
      | none => none
      | some (out, after) =>
        have : after.length ≤ rest.length := escape?_length h
        (contents? quote multiline after).map fun (more, after) => (out ++ more, after)
    else if isPlain c || multiline && c = lineFeed then
      (contents? quote multiline rest).map fun (more, after) => (c :: more, after)
    else none
termination_by cs.length
decreasing_by all_goals simp only [List.length_cons, List.length_drop]; omega

/-- A quoted string; the text given starts behind its first quote. -/
def quoted? (quote : Char) (cs : List Char) : Option (Token × List Char) :=
  let string (multiline : Bool) (body : List Char) :=
    (contents? quote multiline body).map fun (out, rest) => (quoted (String.ofList out) multiline, rest)
  match quoteRun quote cs with
  | 0 => string false cs
  | 1 => some (quoted "" false, cs.drop 1)
  | _ =>
    match cs.drop 2 with
    | [] => none
    | c :: body => if c = lineFeed then string true body else string true (c :: body)

/-- The first token of a text and what follows it. -/
def next? : List Char → Option (Token × List Char)
  | [] => none
  | c :: rest =>
    match marks.lookup c with
    | some mark => some (mark, rest)
    | none =>
      if isBlank c then some (blank, rest.dropWhile isBlank)
      else if c = '#' then some (comment, rest.dropWhile isCommentChar)
      else if c = doubleQuote || c = singleQuote then quoted? c rest
      else if isWordChar c then some (word (String.ofList (c :: rest.takeWhile isWordChar)), rest.dropWhile isWordChar)
      else none

/-- The tokens of a text of at most `n` characters; nothing if there is a place where no token starts. -/
def tokensUpTo? : (n : Nat) → List Char → Option (List Token)
  | _, [] => some []
  | 0, _ :: _ => none
  | n + 1, c :: cs =>
    match next? (c :: cs) with
    | none => none
    | some (token, rest) => (tokensUpTo? n rest).map (token :: ·)

/-- Line ends of two characters become line ends of one. -/
def foldLineEnds : List Char → List Char
  | [] => []
  | c :: rest =>
    if c = carriageReturn ∧ rest.head? = some lineFeed then foldLineEnds rest else c :: foldLineEnds rest

/-- The mark that may stand in front of a text in Unicode. -/
def byteOrderMark : Char := Char.ofNat 0xfeff

/-- The tokens of a text. -/
def ofText? (text : String) : Option (List Token) :=
  let cs := foldLineEnds text.toList
  let cs := if cs.head? = some byteOrderMark then cs.drop 1 else cs
  tokensUpTo? cs.length cs

end Token

end DnsRelay.Toml
