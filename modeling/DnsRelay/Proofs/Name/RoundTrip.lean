import DnsRelay.Proofs.Name.Chain
import DnsRelay.Proofs.Name.Labels
import DnsRelay.Proofs.Name.Text

/-!
# Names in text and on the wire

However one comes by a name, it is valid, and every valid name can be come by in either of two ways: it is read from a text, and
it is decoded from octets (`exists_text_iff`, `exists_octets_iff`). Both ways lead back to the very same name: the text that a name
is shown as is read as this name (`ofString?_toString`), and so is its wire form, whatever stands in front of it and behind
(`decode?_wire`).
-/

namespace DnsRelay.Name

/-- The names that one can come by: the root, those that are read from a text or decoded from octets, and such names in small
letters or in another pattern of cases. -/
inductive Obtainable : Name → Prop where
  | root : Obtainable root
  | read {text : String} {n : Name} : ofString? text = .ok n → Obtainable n
  | decoded {octets : Octets} {start size : Nat} {n : Name} : decode? octets start = .ok (n, size) → Obtainable n
  | lowered {n : Name} : Obtainable n → Obtainable n.lower
  | recased {n : Name} (flips : Nat → Bool) : Obtainable n → Obtainable (n.withCase flips).2

/-- What is read from a text and shown again. -/
def reshow? (text : String) : Except NameError String :=
  (ofString? text).map Name.toString

namespace Text

/-! ## Showing octets -/

/-- An octet of ASCII is one of a character of ASCII. -/
theorem exists_ascii {b : UInt8} (hb : b.toNat < 128) :
    ∃ c : Char, c.toNat < 128 ∧ UInt8.ofNat c.toNat = b ∧ Char.ofNat b.toNat = c := by
  have hascii : ∀ b : UInt8, b.toNat < 128 →
      (Char.ofNat b.toNat).toNat < 128 ∧ UInt8.ofNat (Char.ofNat b.toNat).toNat = b :=
    Octet.forall_lt_of_lt (by decide +kernel)
  exact ⟨_, (hascii b hb).1, (hascii b hb).2, rfl⟩

/-- Three digits behind a backslash stand for the octet whose value they are. -/
theorem standsFor_threeDigits (b : UInt8) : StandsFor ('\\' :: (threeDigits b.toNat).toList) b := by
  have hdigits : ∀ n < 256, (Nat.digitChar (n / 100 % 10)).isDigit = true ∧ (Nat.digitChar (n / 10 % 10)).isDigit = true ∧
      (Nat.digitChar (n % 10)).isDigit = true ∧
      decimal (Nat.digitChar (n / 100 % 10)) (Nat.digitChar (n / 10 % 10)) (Nat.digitChar (n % 10)) = n := by
    decide +kernel
  have hb := b.toNat_lt
  obtain ⟨hx, hy, hz, hvalue⟩ := hdigits b.toNat hb
  have hunit := StandsFor.valued hx hy hz (by omega)
  rw [hvalue, UInt8.ofNat_toNat] at hunit
  rwa [threeDigits, String.toList_ofList]

/-- An octet is shown as a unit that stands for it. -/
theorem standsFor_showOctet (b : UInt8) : StandsFor (showOctet b).toList b := by
  unfold showOctet
  split
  · rename_i hmark
    have hmarks : ∀ b : UInt8, (b = dot || b = backslash) = true →
        b.toNat < 128 ∧ (Char.ofNat b.toNat).isDigit = false := Octet.forall_of_lt (by decide +kernel)
    obtain ⟨hb, hdigit⟩ := hmarks b hmark
    obtain ⟨c, hc, rfl, he⟩ := exists_ascii hb
    rw [he] at hdigit ⊢
    simpa using StandsFor.escaped hc hdigit
  · rename_i hmark
    split
    · rename_i hprints
      simp only [Bool.and_eq_true, decide_eq_true_eq] at hprints
      have hle : b.toNat ≤ 0x7e := UInt8.le_iff_toNat_le.1 hprints.2
      obtain ⟨c, hc, rfl, he⟩ := exists_ascii (b := b) (by omega)
      obtain ⟨hdot, hslash, -⟩ := ascii_octet c hc
      simp only [Bool.or_eq_true, decide_eq_true_eq, hdot, hslash, not_or] at hmark
      rw [he]
      simpa using StandsFor.plain hc hmark.1 hmark.2
    · simpa using standsFor_threeDigits b

/-- The octets of a label are shown as units that spell the label. -/
theorem spells_showOctets (label : List UInt8) : Spells (String.join (label.map showOctet)).toList label := by
  induction label with
  | nil => exact .nil
  | cons b label ih =>
    rw [List.map_cons, String.join_cons, String.toList_append]
    exact .cons (standsFor_showOctet b) ih

/-- Labels are shown as a text that spells them. -/
theorem dotted_showLabels (labels : List (List UInt8)) : Dotted (String.join (labels.map showLabel)).toList labels := by
  induction labels with
  | nil => exact .nil
  | cons label labels ih =>
    have hdotted := Dotted.cons (spells_showOctets label) ih
    simpa [showLabel] using hdotted

end Text

/-! ## Valid names -/

/-- However one comes by a name, it is valid. -/
theorem Obtainable.valid {n : Name} (h : n.Obtainable) : n.Valid := by
  induction h with
  | root => exact ⟨[], List.forall_mem_nil _, rfl, by decide⟩
  | read h =>
    rcases (ofString?_ok_iff _ _).1 h with ⟨-, rfl⟩ | ⟨labels, -, -, hv, hlen, hw⟩
    · exact ⟨[], List.forall_mem_nil _, rfl, by decide⟩
    · exact ⟨labels, hv, hw, hw ▸ hlen⟩
  | decoded h =>
    obtain ⟨stop, hread, -⟩ := (decode?_eq_ok_iff _ _ _ _).1 h
    exact valid_of_readFrom hread
  | @lowered n _ ih => exact ih.of_same n.same_lower
  | @recased n flips _ ih => exact ih.of_same (same_withCase flips n)

/-- The text that a valid name is shown as is read as this name. -/
theorem ofString?_toString {n : Name} (h : n.Valid) : ofString? n.toString = .ok n := by
  obtain ⟨labels, hv, hw, hlen⟩ := h
  rw [ofString?_ok_iff]
  cases labels with
  | nil =>
    have hroot : n = root := by
      cases n
      exact congrArg Name.mk hw
    subst hroot
    exact Or.inl ⟨rfl, rfl⟩
  | cons label labels =>
    have hlong : n.isRoot = false := by
      have hpos : 0 < (encodeLabels labels).length := List.length_pos_iff.2 (encodeLabels_ne_nil labels)
      simp only [isRoot, hw, encodeLabels_cons, encodeLabel, List.length_append, List.length_cons, beq_eq_false_iff_ne]
      omega
    have hne : ∀ l ∈ label :: labels, decide (l ≠ []) = true := fun l hl => decide_eq_true (hv l hl).1
    have hshown : n.labels.filter (· ≠ []) = label :: labels := by
      rw [labels_of_wire hv hw, List.filter_append, List.filter_eq_self.2 hne]
      simp
    refine Or.inr ⟨label :: labels, List.cons_ne_nil _ _, ?_, hv, hw ▸ hlen, hw⟩
    rw [Name.toString, hlong, hshown]
    exact Text.dotted_showLabels _

/-- A valid name is decoded from its wire form, wherever that stands in a message. -/
theorem decode?_wire {n : Name} (h : n.Valid) (front behind : Octets) :
    decode? (front ++ n.wire.toArray ++ behind) front.size = .ok (n, n.wire.length) := by
  have hparts : (front ++ n.wire.toArray ++ behind).toList = front.toList ++ n.wire ++ behind.toList := by simp
  exact (decode?_whole_iff _ _ _).2 ⟨h, Octets.slice?_of_toList hparts⟩

/-- The names that are read from texts are the valid ones. -/
theorem exists_text_iff (n : Name) : (∃ text, ofString? text = .ok n) ↔ n.Valid :=
  ⟨fun ⟨_, h⟩ => (Obtainable.read h).valid, fun h => ⟨n.toString, ofString?_toString h⟩⟩

/-- So are the names that are decoded from octets. -/
theorem exists_octets_iff (n : Name) : (∃ octets start size, decode? octets start = .ok (n, size)) ↔ n.Valid :=
  ⟨fun ⟨_, _, _, h⟩ => (Obtainable.decoded h).valid, fun h => ⟨_, _, _, decode?_wire h #[] #[]⟩⟩

/-- The text of a name is read as this very name, names that are shown alike are equal, and what was read and shown is shown
as it is once more. The wire form is decoded as this very name, whatever stands around it. The names read from texts and those
decoded from octets are the same ones: all with labels of 1 to 63 octets and at most 255 octets on the wire. -/
theorem text_and_wire_exact :
    (∀ n : Name, n.Obtainable → ofString? n.toString = .ok n) ∧
    (∀ a b : Name, a.Obtainable → b.Obtainable → a.toString = b.toString → a = b) ∧
    (∀ text shown, reshow? text = .ok shown → reshow? shown = .ok shown) ∧
    (∀ n : Name, n.Obtainable → ∀ front behind : Octets,
      decode? (front ++ n.wire.toArray ++ behind) front.size = .ok (n, n.wire.length)) ∧
    ∀ n : Name, ((∃ text, ofString? text = .ok n) ↔ n.Valid) ∧
      ((∃ octets start size, decode? octets start = .ok (n, size)) ↔ n.Valid) := by
  have hback : ∀ n : Name, n.Obtainable → ofString? n.toString = .ok n := fun n hn => ofString?_toString hn.valid
  refine ⟨hback, ?_, ?_, ?_, ?_⟩
  · intro a b ha hb h
    have hread := hback a ha
    rw [h, hback b hb] at hread
    exact (Except.ok.inj hread).symm
  · intro text shown h
    unfold reshow? at h
    cases hread : ofString? text with
    | error e =>
      rw [hread] at h
      cases h
    | ok n =>
      rw [hread] at h
      cases h
      rw [reshow?, hback n (.read hread)]
      rfl
  · intro n hn front behind
    exact decode?_wire hn.valid front behind
  · intro n
    exact ⟨exists_text_iff n, exists_octets_iff n⟩

/-- A label of a dot, a backslash, digits behind it, and octets that do not print. -/
theorem text_and_wire_exact_unprintable :
    let n : Name := ⟨[9, 0x2e, 0x5c, 0x31, 0x32, 0x33, 0, 0xff, 0x20, 0x41, 0]⟩
    n.Obtainable ∧ n.toString = "\\.\\\\123\\000\\255\\032A." ∧ ofString? n.toString = .ok n ∧
      decode? (#[1, 0x61, 0] ++ n.wire.toArray ++ #[0xc0, 0]) 3 = .ok (n, 11) := by
  intro n
  have hread : decode? n.wire.toArray 0 = .ok (n, 11) := by cbv
  have hn : n.Obtainable := .decoded hread
  obtain ⟨htext, -, -, hwire, -⟩ := text_and_wire_exact
  exact ⟨hn, by cbv, htext n hn, hwire n hn #[1, 0x61, 0] #[0xc0, 0]⟩

end DnsRelay.Name
