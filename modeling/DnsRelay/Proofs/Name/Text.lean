import Mathlib
import DnsRelay.Name.Text
import DnsRelay.Proofs.Name.Compressed

/-!
# The grammar of name texts

`Dotted text labels` says that a text spells labels, each closed by a dot. Reading a text succeeds exactly on the dot alone and on
the texts that spell labels which make up a name (`ofString?_exact`). The reader sees a text as octets, which can be cut in places
where no character ends; a text with a character beyond ASCII is never read, wherever it stands.
-/

namespace DnsRelay.Name

namespace Text

/-- The number that three decimal digits spell. -/
def decimal (a b c : Char) : Nat :=
  100 * (a.toNat - '0'.toNat) + 10 * (b.toNat - '0'.toNat) + (c.toNat - '0'.toNat)

/-- A unit of a text, and the octet that it stands for: a character of ASCII for itself, with a backslash in front of it if need
be, or a backslash and three digits for their value. -/
inductive StandsFor : List Char → UInt8 → Prop where
  | plain {c : Char} : c.toNat < 128 → c ≠ '.' → c ≠ '\\' → StandsFor [c] (UInt8.ofNat c.toNat)
  | escaped {c : Char} : c.toNat < 128 → c.isDigit = false → StandsFor ['\\', c] (UInt8.ofNat c.toNat)
  | valued {a b c : Char} : a.isDigit = true → b.isDigit = true → c.isDigit = true → decimal a b c ≤ 255 →
      StandsFor ['\\', a, b, c] (UInt8.ofNat (decimal a b c))

/-- The units of a label one after another, and the octets of the label. -/
inductive Spells : List Char → List UInt8 → Prop where
  | nil : Spells [] []
  | cons {unit text : List Char} {b : UInt8} {label : List UInt8} :
      StandsFor unit b → Spells text label → Spells (unit ++ text) (b :: label)

/-- Labels one after another, each closed by a dot that belongs to no unit. -/
inductive Dotted : List Char → List (List UInt8) → Prop where
  | nil : Dotted [] []
  | cons {text rest : List Char} {label : List UInt8} {labels : List (List UInt8)} :
      Spells text label → Dotted rest labels → Dotted (text ++ '.' :: rest) (label :: labels)

/-- The octets of a text. -/
def utf8 (text : List Char) : List UInt8 :=
  text.flatMap String.utf8EncodeChar

/-- The tokens of labels, each with the dot that closes it. -/
def labelTokens (labels : List (List UInt8)) : List Token :=
  labels.flatMap fun label => label.map Token.unit ++ [.dot]

/-! ## Characters and octets -/

/-- What holds of the characters of the numbers up to 127 holds of every character of ASCII. -/
theorem forall_ascii {P : Char → Prop} (h : ∀ n < 128, P (Char.ofNat n)) (c : Char) (hc : c.toNat < 128) : P c := by
  have hP := h c.toNat hc
  rwa [Char.ofNat_toNat] at hP

/-- A character of ASCII is one octet. -/
theorem utf8_cons_ascii {c : Char} (hc : c.toNat < 128) (text : List Char) :
    utf8 (c :: text) = UInt8.ofNat c.toNat :: utf8 text := by
  have hle : c.val.toNat ≤ 0x7f := Nat.le_of_lt_succ hc
  have hone : String.utf8EncodeChar c = [UInt8.ofNat c.toNat] := by
    rw [String.utf8EncodeChar, if_pos hle]
    rfl
  rw [utf8, List.flatMap_cons, hone]
  rfl

/-- Any other character is at least two octets, neither of ASCII. -/
theorem utf8_cons_of_not_ascii {c : Char} (hc : ¬c.toNat < 128) (text : List Char) :
    ∃ a b rest, utf8 (c :: text) = a :: b :: rest ∧ 128 ≤ a.toNat ∧ 128 ≤ b.toNat := by
  have hgt : ¬c.val.toNat ≤ 0x7f := fun hle => hc (Nat.lt_succ_of_le hle)
  have hsmall : ∀ n, n < 128 → 128 ≤ (UInt8.ofNat (n + 128)).toNat := by
    intro n hn
    rw [UInt8.toNat_ofNat']
    omega
  rw [utf8, List.flatMap_cons, String.utf8EncodeChar, if_neg hgt]
  split
  · exact ⟨_, _, _, rfl, by rw [UInt8.toNat_ofNat']; omega, hsmall _ (by omega)⟩
  · split
    · exact ⟨_, _, _, rfl, by rw [UInt8.toNat_ofNat']; omega, hsmall _ (by omega)⟩
    · exact ⟨_, _, _, rfl, by rw [UInt8.toNat_ofNat']; omega, hsmall _ (by omega)⟩

/-- A text without octets has no characters. -/
theorem utf8_eq_nil {text : List Char} (h : utf8 text = []) : text = [] := by
  cases text with
  | nil => rfl
  | cons c text =>
    rw [utf8, List.flatMap_cons, List.append_eq_nil_iff] at h
    exact absurd h.1 String.utf8EncodeChar_ne_nil

/-- A text whose octets start with one of ASCII starts with a character of ASCII. -/
theorem exists_of_utf8_cons {text : List Char} {b : UInt8} {rest : List UInt8} (h : utf8 text = b :: rest)
    (hb : b.toNat < 128) :
    ∃ c text', text = c :: text' ∧ c.toNat < 128 ∧ b = UInt8.ofNat c.toNat ∧ rest = utf8 text' := by
  cases text with
  | nil => cases h
  | cons c text =>
    by_cases hc : c.toNat < 128
    · rw [utf8_cons_ascii hc, List.cons.injEq] at h
      exact ⟨c, text, rfl, hc, h.1.symm, h.2.symm⟩
    · obtain ⟨x, y, zs, he, hx, -⟩ := utf8_cons_of_not_ascii hc text
      rw [he, List.cons.injEq] at h
      rw [h.1] at hx
      omega

/-- What the reader asks of the octet of a character of ASCII. -/
theorem ascii_octet : ∀ c : Char, c.toNat < 128 →
    (UInt8.ofNat c.toNat = dot ↔ c = '.') ∧ (UInt8.ofNat c.toNat = backslash ↔ c = '\\') ∧
      UInt8.ofNat c.toNat < 0x80 ∧ Octet.isDigit (UInt8.ofNat c.toNat) = c.isDigit ∧
      Octet.digitValue (UInt8.ofNat c.toNat) = c.toNat - '0'.toNat := by
  refine forall_ascii ?_
  decide +kernel

/-- A digit is a character of ASCII. -/
theorem ascii_of_isDigit {c : Char} (h : c.isDigit = true) : c.toNat < 128 := by
  have hle : c.val.toNat ≤ 57 := by
    simp only [Char.isDigit, Bool.and_eq_true, decide_eq_true_eq] at h
    exact UInt32.le_iff_toNat_le.1 h.2
  exact Nat.lt_of_le_of_lt hle (by decide)

/-- An octet that is a digit is one of ASCII. -/
theorem lt_of_isDigit {b : UInt8} (h : Octet.isDigit b = true) : b.toNat < 128 := by
  simp only [Octet.isDigit, Bool.and_eq_true, decide_eq_true_eq] at h
  have hle : b.toNat ≤ 0x39 := UInt8.le_iff_toNat_le.1 h.2
  omega

/-! ## Tokens -/

/-- The empty text has no tokens. -/
theorem tokens_nil : tokens [] = [] := by
  rw [tokens]

/-- A dot is a token. -/
theorem tokens_dot (rest : List Char) : tokens (utf8 ('.' :: rest)) = .dot :: tokens (utf8 rest) := by
  rw [utf8_cons_ascii (by decide), tokens, if_pos (by decide)]

/-- An octet beyond ASCII is a fault. -/
theorem tokens_of_not_ascii {b : UInt8} (hb : 128 ≤ b.toNat) (rest : List UInt8) :
    tokens (b :: rest) = [.fault .notAscii] := by
  have hne : ∀ a : UInt8, a.toNat < 128 → b ≠ a := by
    rintro a ha rfl
    omega
  have hlt : ¬b < 0x80 := by
    rw [UInt8.lt_iff_toNat_lt]
    exact Nat.not_lt.2 hb
  rw [tokens, if_neg (hne dot (by decide)), if_neg (hne backslash (by decide)), if_neg hlt]

/-- A backslash is a fault unless an escape sequence stands behind it. -/
theorem tokens_of_escape {text : List UInt8} {value : UInt8} {after : List UInt8} (h : escape? text = some (value, after)) :
    tokens (backslash :: text) = .unit value :: tokens after := by
  rw [tokens, if_neg (by decide), if_pos rfl]
  split
  · rename_i value' after' h'
    rw [h, Option.some.injEq, Prod.mk.injEq] at h'
    rw [h'.1, h'.2]
  · rename_i h'
    rw [h] at h'
    cases h'

/-- Without an escape sequence behind it a backslash is a fault. -/
theorem tokens_of_no_escape {text : List UInt8} (h : escape? text = none) :
    tokens (backslash :: text) = [.fault .invalidEscape] := by
  rw [tokens, if_neg (by decide), if_pos rfl]
  split
  · rename_i h'
    rw [h] at h'
    cases h'
  · rfl

/-- A unit is read as the octet that it stands for, whatever comes behind it. -/
theorem StandsFor.tokens_append {unit : List Char} {b : UInt8} (h : StandsFor unit b) (rest : List Char) :
    tokens (utf8 (unit ++ rest)) = .unit b :: tokens (utf8 rest) := by
  cases h with
  | @plain c hc hdot hslash =>
    obtain ⟨hd, hs, hlt, -⟩ := ascii_octet c hc
    rw [List.singleton_append, utf8_cons_ascii hc, tokens, if_neg (hd.not.2 hdot), if_neg (hs.not.2 hslash), if_pos hlt]
  | @escaped c hc hdigit =>
    obtain ⟨-, -, -, hd, -⟩ := ascii_octet c hc
    have hescape : escape? (UInt8.ofNat c.toNat :: utf8 rest) = some (UInt8.ofNat c.toNat, utf8 rest) := by
      simp [escape?, hd, hdigit]
    simp only [List.cons_append, List.nil_append]
    rw [utf8_cons_ascii (by decide), utf8_cons_ascii hc]
    exact tokens_of_escape hescape
  | @valued x y z hx hy hz hle =>
    have hx' := ascii_of_isDigit hx
    have hy' := ascii_of_isDigit hy
    have hz' := ascii_of_isDigit hz
    obtain ⟨-, -, -, hdx, hvx⟩ := ascii_octet x hx'
    obtain ⟨-, -, -, hdy, hvy⟩ := ascii_octet y hy'
    obtain ⟨-, -, -, hdz, hvz⟩ := ascii_octet z hz'
    have hescape : escape? (UInt8.ofNat x.toNat :: UInt8.ofNat y.toNat :: UInt8.ofNat z.toNat :: utf8 rest) =
        some (UInt8.ofNat (decimal x y z), utf8 rest) := by
      rw [decimal] at hle ⊢
      simpa [escape?, hdx, hdy, hdz, hx, hy, hz, hvx, hvy, hvz] using hle
    simp only [List.cons_append, List.nil_append]
    rw [utf8_cons_ascii (by decide), utf8_cons_ascii hx', utf8_cons_ascii hy', utf8_cons_ascii hz']
    exact tokens_of_escape hescape

/-- An escape sequence that starts with a digit goes on with two more, and its value is one of an octet. -/
theorem exists_of_escape?_digit {a : UInt8} {text : List UInt8} {found : UInt8 × List UInt8}
    (h : escape? (a :: text) = some found) (ha : Octet.isDigit a = true) :
    ∃ b c rest, text = b :: c :: rest ∧ Octet.isDigit b = true ∧ Octet.isDigit c = true ∧
      100 * Octet.digitValue a + 10 * Octet.digitValue b + Octet.digitValue c ≤ 255 := by
  rcases text with _ | ⟨b, _ | ⟨c, rest⟩⟩
  · simp [escape?, ha] at h
  · simp [escape?, ha] at h
  · simp only [escape?, ha, if_true, ite_eq_iff, reduceCtorEq, and_false, or_false, Bool.and_eq_true,
      decide_eq_true_eq] at h
    obtain ⟨⟨⟨hb, hc⟩, hle⟩, -⟩ := h
    exact ⟨b, c, rest, rfl, hb, hc, hle⟩

/-- Behind a backslash a character of ASCII or three digits make a unit; anything else leads to a fault. -/
theorem tokens_escape_cases (text : List Char) :
    (∃ unit b rest, '\\' :: text = unit ++ rest ∧ StandsFor unit b) ∨
      ∃ e, Token.fault e ∈ tokens (backslash :: utf8 text) := by
  cases text with
  | nil => exact Or.inr ⟨.invalidEscape, by rw [tokens_of_no_escape rfl]; exact List.mem_singleton_self _⟩
  | cons a text =>
    by_cases ha : a.toNat < 128
    · obtain ⟨-, -, -, hdigit, hvalue⟩ := ascii_octet a ha
      rw [utf8_cons_ascii ha]
      cases hda : a.isDigit with
      | false => exact Or.inl ⟨['\\', a], _, text, rfl, .escaped ha hda⟩
      | true =>
        cases he : escape? (UInt8.ofNat a.toNat :: utf8 text) with
        | none => exact Or.inr ⟨.invalidEscape, by rw [tokens_of_no_escape he]; exact List.mem_singleton_self _⟩
        | some found =>
          obtain ⟨x, y, rest, hxy, hdx, hdy, hle⟩ := exists_of_escape?_digit he (hdigit.trans hda)
          obtain ⟨b, text, rfl, hb, rfl, hrest⟩ := exists_of_utf8_cons hxy (lt_of_isDigit hdx)
          obtain ⟨c, text, rfl, hc, rfl, rfl⟩ := exists_of_utf8_cons hrest.symm (lt_of_isDigit hdy)
          obtain ⟨-, -, -, hdb, hvb⟩ := ascii_octet b hb
          obtain ⟨-, -, -, hdc, hvc⟩ := ascii_octet c hc
          rw [hvalue, hvb, hvc] at hle
          exact Or.inl ⟨['\\', a, b, c], _, text, rfl, .valued hda (hdb.symm.trans hdx) (hdc.symm.trans hdy) hle⟩
    · -- the octet behind the backslash is taken as it is, and the next one is no character
      obtain ⟨x, y, rest, he, hx, hy⟩ := utf8_cons_of_not_ascii ha text
      have hdx : Octet.isDigit x = false := by
        cases hd : Octet.isDigit x with
        | false => rfl
        | true =>
          have := lt_of_isDigit hd
          omega
      have hescape : escape? (x :: y :: rest) = some (x, y :: rest) := by
        simp [escape?, hdx]
      refine Or.inr ⟨.notAscii, ?_⟩
      rw [he, tokens_of_escape hescape, tokens_of_not_ascii hy]
      exact List.mem_cons_of_mem _ (List.mem_singleton_self _)

/-- What a text starts with: nothing, a dot, a unit, or something that leads to a fault. -/
theorem tokens_cases (text : List Char) :
    text = [] ∨ (∃ rest, text = '.' :: rest) ∨ (∃ unit b rest, text = unit ++ rest ∧ StandsFor unit b) ∨
      ∃ e, Token.fault e ∈ tokens (utf8 text) := by
  cases text with
  | nil => exact Or.inl rfl
  | cons c text =>
    by_cases hc : c.toNat < 128
    · by_cases hdot : c = '.'
      · subst hdot
        exact Or.inr (Or.inl ⟨text, rfl⟩)
      · by_cases hslash : c = '\\'
        · subst hslash
          rw [utf8_cons_ascii hc]
          exact Or.inr (Or.inr (tokens_escape_cases text))
        · exact Or.inr (Or.inr (Or.inl ⟨[c], _, text, rfl, .plain hc hdot hslash⟩))
    · obtain ⟨a, b, rest, he, ha, -⟩ := utf8_cons_of_not_ascii hc text
      refine Or.inr (Or.inr (Or.inr ⟨.notAscii, ?_⟩))
      rw [he, tokens_of_not_ascii ha]
      exact List.mem_singleton_self _

/-- The units of a label are read as its octets, whatever comes behind them. -/
theorem Spells.tokens_append {text : List Char} {label : List UInt8} (h : Spells text label) (rest : List Char) :
    tokens (utf8 (text ++ rest)) = label.map Token.unit ++ tokens (utf8 rest) := by
  induction h with
  | nil => rfl
  | cons hunit _ ih => rw [List.append_assoc, hunit.tokens_append, ih, List.map_cons, List.cons_append]

/-- A text that spells labels has their tokens. -/
theorem Dotted.tokens_eq {text : List Char} {labels : List (List UInt8)} (h : Dotted text labels) :
    tokens (utf8 text) = labelTokens labels := by
  induction h with
  | nil => exact tokens_nil
  | cons hlabel _ ih =>
    rw [hlabel.tokens_append, tokens_dot, ih, labelTokens, labelTokens, List.flatMap_cons, List.append_assoc,
      List.singleton_append]

/-- A text that spells no labels is empty. -/
theorem Dotted.eq_nil {text : List Char} (h : Dotted text []) : text = [] := by
  cases h
  rfl

/-- The tokens of labels hold no fault. -/
theorem fault_not_mem_labelTokens (labels : List (List UInt8)) (e : NameError) : Token.fault e ∉ labelTokens labels := by
  simp [labelTokens]

/-- The tokens of a label and those behind it come from a text that spells the label up to a dot. -/
theorem exists_spells {label : List UInt8} {labels : List (List UInt8)} {text : List Char}
    (h : tokens (utf8 text) = labelTokens (label :: labels)) :
    ∃ front rest, text = front ++ '.' :: rest ∧ Spells front label ∧ tokens (utf8 rest) = labelTokens labels := by
  have hfault : ∀ e, Token.fault e ∉ tokens (utf8 text) := fun e => h ▸ fault_not_mem_labelTokens _ e
  induction label generalizing text with
  | nil =>
    rcases tokens_cases text with rfl | ⟨rest, rfl⟩ | ⟨unit, b, rest, rfl, hunit⟩ | ⟨e, he⟩
    · rw [utf8, List.flatMap_nil, tokens_nil] at h
      cases h
    · rw [tokens_dot] at h
      exact ⟨[], rest, rfl, .nil, List.tail_eq_of_cons_eq h⟩
    · rw [hunit.tokens_append] at h
      cases h
    · exact absurd he (hfault e)
  | cons b label ih =>
    rcases tokens_cases text with rfl | ⟨rest, rfl⟩ | ⟨unit, b', rest, rfl, hunit⟩ | ⟨e, he⟩
    · rw [utf8, List.flatMap_nil, tokens_nil] at h
      cases h
    · rw [tokens_dot] at h
      cases h
    · rw [hunit.tokens_append] at h hfault
      obtain ⟨hb, htail⟩ := List.cons.inj h
      obtain ⟨front, rest, rfl, hlabel, hrest⟩ := ih htail fun e he => hfault e (List.mem_cons_of_mem _ he)
      refine ⟨unit ++ front, rest, (List.append_assoc ..).symm, ?_, hrest⟩
      rw [← Token.unit.inj hb]
      exact .cons hunit hlabel
    · exact absurd he (hfault e)

/-- A text spells labels iff it has their tokens. -/
theorem dotted_iff (text : List Char) (labels : List (List UInt8)) :
    Dotted text labels ↔ tokens (utf8 text) = labelTokens labels := by
  refine ⟨Dotted.tokens_eq, fun h => ?_⟩
  induction labels generalizing text with
  | nil =>
    rcases tokens_cases text with rfl | ⟨rest, rfl⟩ | ⟨unit, b, rest, rfl, hunit⟩ | ⟨e, he⟩
    · exact .nil
    · rw [tokens_dot] at h
      cases h
    · rw [hunit.tokens_append] at h
      cases h
    · exact absurd (h ▸ he) (fault_not_mem_labelTokens [] e)
  | cons label labels ih =>
    obtain ⟨front, rest, rfl, hlabel, hrest⟩ := exists_spells h
    exact .cons hlabel (ih rest hrest)

/-! ## Labels out of tokens -/

/-- Tokens that are some octets and more are the tokens of labels iff the octets start the first label. -/
theorem exists_of_map_unit_append {octets : List UInt8} (hne : octets ≠ []) {more : List Token} {labels : List (List UInt8)}
    (h : octets.map Token.unit ++ more = labelTokens labels) :
    ∃ label rest, labels = (octets ++ label) :: rest ∧ more = label.map Token.unit ++ .dot :: labelTokens rest := by
  cases labels with
  | nil =>
    rw [labelTokens, List.flatMap_nil, List.append_eq_nil_iff, List.map_eq_nil_iff] at h
    exact absurd h.1 hne
  | cons first rest =>
    clear hne
    induction octets generalizing first with
    | nil => exact ⟨first, rest, rfl, by simpa [labelTokens] using h⟩
    | cons b octets ih =>
      cases first with
      | nil =>
        simp only [labelTokens, List.map_cons, List.flatMap_cons, List.map_nil, List.cons_append, List.nil_append,
          List.cons.injEq, reduceCtorEq, false_and] at h
      | cons b' first =>
        simp only [labelTokens, List.map_cons, List.flatMap_cons, List.cons_append, List.cons.injEq,
          Token.unit.injEq] at h
        obtain ⟨rfl, h⟩ := h
        obtain ⟨label, rest', he, hmore⟩ := ih first h
        rw [List.cons.injEq] at he
        exact ⟨label, rest', by rw [he.1, he.2, List.cons_append], hmore⟩

/-- A unit behind an open label is one of the label. -/
theorem map_unit_append_cons (octets : List UInt8) (value : UInt8) (more : List Token) :
    octets.map Token.unit ++ .unit value :: more = (octets ++ [value]).map Token.unit ++ more := by
  simp

/-- The open label of tokens that make up a name is not too long, and leaves room for the null label. -/
theorem open_label_le {octets : List UInt8} (hne : octets ≠ []) {more : List Token} {labels : List (List UInt8)}
    (h : octets.map Token.unit ++ more = labelTokens labels) (hvalid : ∀ l ∈ labels, ValidLabel l) {done : List UInt8}
    (hlen : (done ++ encodeLabels labels).length ≤ maxWireLength) :
    octets.length ≤ maxLabelLength ∧ done.length + 1 + octets.length < maxWireLength := by
  obtain ⟨label, rest, rfl, -⟩ := exists_of_map_unit_append hne h
  have hlabel := (hvalid _ List.mem_cons_self).2
  have hpos : 0 < (encodeLabels rest).length := List.length_pos_iff.2 (encodeLabels_ne_nil rest)
  rw [encodeLabels_cons, encodeLabel] at hlen
  simp only [List.length_append, List.length_cons] at hlabel hlen
  omega

/-- What is gathered: `done` is the wire form of the labels closed so far, `current` are the octets of the open label, and neither
is too long. They and the tokens behind them make up a name iff the tokens go on to those of valid labels, which leave the name
short enough. -/
theorem gather_ok_iff (done current : List UInt8) (ts : List Token) (hcurrent : current.length ≤ maxLabelLength)
    (hdone : done.length + 1 + current.length ≤ maxWireLength) (n : Name) :
    gather done current ts = .ok n ↔ ∃ labels, current.map Token.unit ++ ts = labelTokens labels ∧
      (∀ l ∈ labels, ValidLabel l) ∧ (done ++ encodeLabels labels).length ≤ maxWireLength ∧
      n = ⟨done ++ encodeLabels labels⟩ := by
  fun_induction gather done current ts with
  | case1 done =>
    constructor
    · rintro ⟨rfl⟩
      exact ⟨[], rfl, List.forall_mem_nil _, by simpa [encodeLabels] using hdone, rfl⟩
    · rintro ⟨labels, h, -, -, rfl⟩
      cases labels with
      | nil => rfl
      | cons label labels => simp [labelTokens] at h
  | case2 done current hne =>
    constructor
    · intro he
      cases he
    · rintro ⟨labels, h, -⟩
      obtain ⟨label, rest, -, hmore⟩ := exists_of_map_unit_append hne h
      simp at hmore
  | case3 done current e rest =>
    constructor
    · intro he
      cases he
    · rintro ⟨labels, h, -⟩
      refine absurd ?_ (fault_not_mem_labelTokens labels e)
      rw [← h]
      exact List.mem_append_right _ List.mem_cons_self
  | case4 done rest =>
    constructor
    · intro he
      cases he
    · rintro ⟨labels, h, hvalid, -⟩
      rcases labels with _ | ⟨_ | ⟨b, label⟩, labels⟩
      · cases h
      · exact absurd rfl (hvalid [] List.mem_cons_self).1
      · cases h
  | case5 done current rest hne hlong =>
    constructor
    · intro he
      cases he
    · rintro ⟨labels, h, hvalid, hlen, -⟩
      have := (open_label_le hne h hvalid hlen).2
      omega
  | case6 done current rest hne hfits ih =>
    have hclosed : (done ++ encodeLabel current).length = done.length + 1 + current.length := by
      rw [List.length_append, encodeLabel, List.length_cons]
      omega
    rw [ih (Nat.zero_le _) (by rw [hclosed, List.length_nil]; omega)]
    constructor
    · rintro ⟨labels, h, hvalid, hlen, rfl⟩
      rw [List.map_nil, List.nil_append] at h
      rw [List.append_assoc, ← encodeLabels_cons] at hlen
      refine ⟨current :: labels, by rw [h]; simp [labelTokens], ?_, hlen, by rw [encodeLabels_cons, List.append_assoc]⟩
      exact List.forall_mem_cons.2 ⟨⟨hne, hcurrent⟩, hvalid⟩
    · rintro ⟨labels, h, hvalid, hlen, rfl⟩
      obtain ⟨label, labels, rfl, hmore⟩ := exists_of_map_unit_append hne h
      obtain rfl : label = [] := by
        cases label with
        | nil => rfl
        | cons b label => cases hmore
      rw [List.append_nil, encodeLabels_cons, ← List.append_assoc] at hlen ⊢
      exact ⟨labels, List.tail_eq_of_cons_eq hmore, (List.forall_mem_cons.1 hvalid).2, hlen, rfl⟩
  | case7 done current value rest hlong =>
    constructor
    · intro he
      cases he
    · rintro ⟨labels, h, hvalid, hlen, -⟩
      rw [map_unit_append_cons] at h
      have := (open_label_le (List.concat_ne_nil _ _) h hvalid hlen).1
      rw [List.length_append, List.length_singleton] at this
      omega
  | case8 done current value rest _ hlong =>
    constructor
    · intro he
      cases he
    · rintro ⟨labels, h, hvalid, hlen, -⟩
      rw [map_unit_append_cons] at h
      have := (open_label_le (List.concat_ne_nil _ _) h hvalid hlen).2
      rw [List.length_append, List.length_singleton] at this
      omega
  | case9 done current value rest hlabel hfits ih =>
    rw [map_unit_append_cons]
    refine ih ?_ ?_
    · rw [List.length_append, List.length_singleton]
      omega
    · rw [List.length_append, List.length_singleton]
      omega

/-- A text of characters is the name of labels iff it spells them, and they make up a name. -/
theorem gather_tokens_iff (text : List Char) (n : Name) :
    gather [] [] (tokens (utf8 text)) = .ok n ↔ ∃ labels, Dotted text labels ∧ (∀ l ∈ labels, ValidLabel l) ∧
      (encodeLabels labels).length ≤ maxWireLength ∧ n = ⟨encodeLabels labels⟩ := by
  simp only [gather_ok_iff [] [] _ (Nat.zero_le _) (by decide), List.map_nil, List.nil_append, dotted_iff]

/-- The characters of a unit are of ASCII. -/
theorem StandsFor.ascii {unit : List Char} {b : UInt8} (h : StandsFor unit b) : ∀ c ∈ unit, c.toNat < 128 := by
  cases h with
  | plain hc _ _ => simpa using hc
  | escaped hc _ => simpa using hc
  | valued ha hb hc _ => simp [ascii_of_isDigit ha, ascii_of_isDigit hb, ascii_of_isDigit hc]

/-- The characters of labels are of ASCII. -/
theorem Dotted.ascii {text : List Char} {labels : List (List UInt8)} (h : Dotted text labels) :
    ∀ c ∈ text, c.toNat < 128 := by
  have hspells : ∀ {front : List Char} {label : List UInt8}, Spells front label → ∀ c ∈ front, c.toNat < 128 := by
    intro front label hfront
    induction hfront with
    | nil => exact List.forall_mem_nil _
    | cons hunit _ ih => exact List.forall_mem_append.2 ⟨hunit.ascii, ih⟩
  induction h with
  | nil => exact List.forall_mem_nil _
  | cons hlabel _ ih =>
    exact List.forall_mem_append.2 ⟨hspells hlabel, List.forall_mem_cons.2 ⟨by decide, ih⟩⟩

/-- What the octets of an array are listed as, from a place on. -/
theorem toList_loop_eq (bytes : ByteArray) (i : Nat) (front : List UInt8) :
    ByteArray.toList.loop bytes i front = front.reverse ++ bytes.data.toList.drop i := by
  fun_induction ByteArray.toList.loop bytes i front with
  | case1 i front hi ih =>
    have hlt : i < bytes.data.toList.length := hi
    have hget : bytes.get! i = bytes.data.toList[i] := getElem!_pos bytes.data i hi
    rw [ih, List.drop_eq_getElem_cons hlt, hget, List.reverse_cons, List.append_assoc, List.singleton_append]
  | case2 i front hi =>
    have hle : bytes.data.toList.length ≤ i := Nat.le_of_not_lt hi
    rw [List.drop_eq_nil_of_le hle, List.append_nil]

/-- The octets of a text are those of its characters. -/
theorem toUTF8_toList (text : String) : text.toUTF8.toList = utf8 text.toList := by
  rw [ByteArray.toList, toList_loop_eq, String.toUTF8_eq_toByteArray, ← String.utf8Encode_toList, List.utf8Encode,
    List.toList_data_toByteArray]
  rfl

end Text

open Text

/-- A text is read by its characters: the empty text is none, the dot is the root, and any other one is the name of the labels that
it spells, if they are valid and not too long together. -/
theorem ofString?_ok_iff (text : String) (n : Name) :
    ofString? text = .ok n ↔ text = "." ∧ n = root ∨
      ∃ labels, labels ≠ [] ∧ Dotted text.toList labels ∧ (∀ l ∈ labels, ValidLabel l) ∧
        (encodeLabels labels).length ≤ maxWireLength ∧ n.wire = encodeLabels labels := by
  rw [ofString?, ofOctets?, toUTF8_toList]
  split
  · rename_i hnil
    refine ⟨nofun, ?_⟩
    rintro (⟨rfl, -⟩ | ⟨labels, hne, hdotted, -⟩)
    · cases utf8_eq_nil hnil
    · rw [dotted_iff, hnil, tokens_nil] at hdotted
      cases labels with
      | nil => exact absurd rfl hne
      | cons label labels => simp [labelTokens] at hdotted
  · rename_i hnil
    split
    · rename_i hdot
      obtain ⟨c, rest, hc, hascii, hcdot, hrest⟩ := exists_of_utf8_cons hdot (by decide)
      obtain rfl := (ascii_octet c hascii).1.1 hcdot.symm
      have htext : text = "." := by
        rw [← String.toList_inj, hc, utf8_eq_nil hrest.symm]
        rfl
      constructor
      · rintro ⟨rfl⟩
        exact Or.inl ⟨htext, rfl⟩
      · rintro (⟨-, rfl⟩ | ⟨labels, -, hdotted, hvalid, -⟩)
        · rfl
        · rw [dotted_iff, hc, tokens_dot, ← hrest, tokens_nil] at hdotted
          rcases labels with _ | ⟨_ | ⟨b, label⟩, labels⟩
          · cases hdotted
          · exact absurd rfl (hvalid [] List.mem_cons_self).1
          · cases hdotted
    · rename_i hdot
      rw [gather_tokens_iff]
      constructor
      · rintro ⟨labels, hdotted, hvalid, hlen, rfl⟩
        refine Or.inr ⟨labels, ?_, hdotted, hvalid, hlen, rfl⟩
        rintro rfl
        exact hnil (by rw [hdotted.eq_nil]; rfl)
      · rintro (⟨rfl, -⟩ | ⟨labels, -, hdotted, hvalid, hlen, hw⟩)
        · exact absurd (utf8_cons_ascii (c := '.') (by decide) []) hdot
        · exact ⟨labels, hdotted, hvalid, hlen, by rw [← hw]⟩

/-- The length of a wire form. -/
theorem length_encodeLabels (labels : List (List UInt8)) :
    (encodeLabels labels).length = 1 + (labels.map fun l => l.length + 1).sum := by
  induction labels with
  | nil => rfl
  | cons label labels ih =>
    rw [encodeLabels_cons, List.length_append, ih, encodeLabel, List.map_cons, List.sum_cons, List.length_cons]
    omega

/-- A text is read as a name iff it is a single dot, for the root, or spells labels of 1 to 63 octets, at least one and each
closed by a dot, that take at most 255 octets on the wire; these are the octets of the name. A text with a character beyond
ASCII anywhere in it is not read. -/
theorem ofString?_exact (text : String) :
    (∀ n, ofString? text = .ok n ↔ text = "." ∧ n = root ∨
      ∃ labels, labels ≠ [] ∧ Dotted text.toList labels ∧ (∀ l ∈ labels, 1 ≤ l.length ∧ l.length ≤ 63) ∧
        1 + (labels.map fun l => l.length + 1).sum ≤ 255 ∧
        n.wire = (labels.flatMap fun l => UInt8.ofNat l.length :: l) ++ [0]) ∧
    ((∃ c ∈ text.toList, 128 ≤ c.toNat) → ∃ e, ofString? text = .error e) := by
  have hvalid : ∀ label, ValidLabel label ↔ 1 ≤ label.length ∧ label.length ≤ 63 := by
    intro label
    rw [ValidLabel, ← List.length_pos_iff]
    rfl
  constructor
  · intro n
    simp only [ofString?_ok_iff, hvalid, length_encodeLabels]
    rfl
  · rintro ⟨c, hc, hge⟩
    cases h : ofString? text with
    | error e => exact ⟨e, rfl⟩
    | ok n =>
      rcases (ofString?_ok_iff text n).1 h with ⟨rfl, -⟩ | ⟨labels, -, hdotted, -⟩
      · obtain rfl : c = '.' := List.mem_singleton.1 hc
        exact absurd hge (by decide)
      · have := hdotted.ascii c hc
        omega

end DnsRelay.Name
