import DnsRelay.Message.Writer
import DnsRelay.Proofs.Message.Writing

/-!
# Drafts of messages

A `Draft` is what a message is to say: the fields of its header, its questions and its answers. `Draft.octets` is the message that
says it, with the owner of an answer shortened to a pointer where it is the first name asked about. A message with these octets
is read as the draft (`Draft.Reads`, `Draft.reads_of_octets`).
-/

namespace DnsRelay

/-- The bits of an opcode are four. -/
theorem Opcode.toOctet_lt (opcode : Opcode) : opcode.toOctet.toNat < 16 := by
  have hand : ∀ b : UInt8, (b &&& 0x0f).toNat < 16 := Octet.forall_of_lt (by decide +kernel)
  cases opcode with
  | other value => exact hand value
  | _ => decide

/-- The bits of a response code are four. -/
theorem Rcode.toOctet_lt (rcode : Rcode) : rcode.toOctet.toNat < 16 := by
  have hand : ∀ b : UInt8, (b &&& 0x0f).toNat < 16 := Octet.forall_of_lt (by decide +kernel)
  cases rcode with
  | other value => exact hand value
  | _ => decide

/-- A time to live that was written is read. -/
theorem Ttl.ofWire_seconds (t : Ttl) : ofWire t.seconds = t :=
  dif_pos t.bounded

/-- What a message is to say. -/
structure Draft where
  id : UInt16
  isResponse : Bool
  opcode : Opcode
  truncated : Bool
  recursionDesired : Bool
  recursionAvailable : Bool
  rcode : Rcode
  questions : List Question
  records : List Record
  deriving DecidableEq, Repr

namespace Draft

/-- A draft in which nothing was set and nothing was added. -/
def blank : Draft := ⟨0, false, .query, false, false, false, .noError, [], []⟩

/-- A bit of an octet, if it is set. -/
def bit (mask : UInt8) (set : Bool) : UInt8 :=
  if set then mask else 0

/-- The third octet of a header. -/
def flags (isResponse : Bool) (opcode : UInt8) (truncated recursionDesired : Bool) : UInt8 :=
  bit Header.responseBit isResponse ||| opcode <<< 3 ||| bit Header.truncationBit truncated |||
    bit Header.recursionDesiredBit recursionDesired

/-- The fourth octet of a header. -/
def codes (recursionAvailable : Bool) (rcode : UInt8) : UInt8 :=
  bit Header.recursionAvailableBit recursionAvailable ||| rcode

/-- The header of a draft. -/
def header (d : Draft) : List UInt8 :=
  Octets.ofU16 d.id ++ [flags d.isResponse d.opcode.toOctet d.truncated d.recursionDesired,
    codes d.recursionAvailable d.rcode.toOctet] ++ Octets.ofU16 (UInt16.ofNat d.questions.length) ++
    Octets.ofU16 (UInt16.ofNat d.records.length) ++ [0, 0, 0, 0]

/-- The first name that a draft asks about. -/
def firstName (d : Draft) : Option Name :=
  d.questions.head?.map (·.qname)

/-- An answer of a draft: its owner is a pointer if the first name asked about is the same. -/
def recordOctets (firstName : Option Name) (x : Record) : List UInt8 :=
  (Writer.answerPieces firstName x.owner x.type x.cls x.ttl x.data).flatten

/-- The questions of a draft, and behind them its answers. -/
def body (d : Draft) : List UInt8 :=
  d.questions.flatMap (·.pieces.flatten) ++ d.records.flatMap (recordOctets d.firstName)

/-- The message that says what a draft is to say. -/
def octets (d : Draft) : List UInt8 :=
  d.header ++ d.body

/-- A draft that a message can say: its names are valid, and its counts and the lengths of its data fit into two octets. -/
structure Valid (d : Draft) : Prop where
  questions : ∀ q ∈ d.questions, q.qname.Valid
  records : ∀ x ∈ d.records, x.owner.Valid ∧ x.data.length ≤ maxMessageSize
  questionCount : d.questions.length ≤ 65535
  answerCount : d.records.length ≤ 65535

/-- A message is read as a draft: its header has the fields and the counts of the draft, and reading as many questions and then as
many records as it announces gives those of the draft, in their order, and ends at `stop`. -/
structure Reads (d : Draft) (m : Message) (stop : Nat) : Prop where
  id : m.id = d.id
  isResponse : m.isResponse = d.isResponse
  opcode : m.opcode.toOctet = d.opcode.toOctet
  truncated : m.truncated = d.truncated
  recursionDesired : m.recursionDesired = d.recursionDesired
  rcode : m.rcode.toOctet = d.rcode.toOctet
  questionCount : m.questionCount.toNat = d.questions.length
  answerCount : m.answerCount.toNat = d.records.length
  authorityCount : m.authorityCount = 0
  additionalCount : m.additionalCount = 0
  reads : ∃ r, (Reader.ofMessage m).readQuestions m.questionCount.toNat = .ok (d.questions, r) ∧
    r.readRecords m.answerCount.toNat = .ok (d.records, ⟨m, stop⟩)

/-! ## The header -/

/-- What the flags are read as. -/
theorem flags_fields (isResponse truncated recursionDesired : Bool) : ∀ opcode : UInt8, opcode.toNat < 16 →
    let flags := flags isResponse opcode truncated recursionDesired
    (flags &&& Header.responseBit != 0) = isResponse ∧
      (Opcode.ofOctet ((flags &&& Header.opcodeBits) >>> 3)).toOctet = opcode ∧
      (flags &&& Header.truncationBit != 0) = truncated ∧
      (flags &&& Header.recursionDesiredBit != 0) = recursionDesired := by
  refine Octet.forall_lt_of_lt ?_
  revert isResponse truncated recursionDesired
  decide +kernel

/-- What the codes are read as. -/
theorem codes_fields (recursionAvailable : Bool) : ∀ rcode : UInt8, rcode.toNat < 16 →
    (Rcode.ofOctet (codes recursionAvailable rcode &&& Header.rcodeBits)).toOctet = rcode := by
  refine Octet.forall_lt_of_lt ?_
  revert recursionAvailable
  decide +kernel

section Reading

variable {d : Draft} {m : Message} (hm : m.octets.toList = d.octets)
include hm

/-- The octets of the header of a draft are those of the message. -/
theorem headerOctet_eq {i : Fin 12} {b : UInt8} (h : d.header[i.val]? = some b) : m.headerOctet i = b := by
  refine m.headerOctet_of_getElem? ?_
  have hlt := (List.getElem?_eq_some_iff.1 h).1
  rw [← Array.getElem?_toList, hm, octets, List.getElem?_append_left hlt, h]

/-- The header of a message that says what a draft is to say. -/
theorem header_fields (hvalid : d.Valid) :
    m.id = d.id ∧ m.isResponse = d.isResponse ∧ m.opcode.toOctet = d.opcode.toOctet ∧ m.truncated = d.truncated ∧
      m.recursionDesired = d.recursionDesired ∧ m.rcode.toOctet = d.rcode.toOctet ∧
      m.questionCount.toNat = d.questions.length ∧ m.answerCount.toNat = d.records.length ∧
      m.authorityCount = 0 ∧ m.additionalCount = 0 := by
  have hquestions := hvalid.questionCount
  have hanswers := hvalid.answerCount
  obtain ⟨hresponse, hopcode, htruncated, hdesired⟩ :=
    flags_fields d.isResponse d.truncated d.recursionDesired d.opcode.toOctet d.opcode.toOctet_lt
  have hcodes := codes_fields d.recursionAvailable d.rcode.toOctet d.rcode.toOctet_lt
  have h2 : m.headerOctet 2 = flags d.isResponse d.opcode.toOctet d.truncated d.recursionDesired := headerOctet_eq hm rfl
  have h3 : m.headerOctet 3 = codes d.recursionAvailable d.rcode.toOctet := headerOctet_eq hm rfl
  have hid : m.id = d.id := by
    rw [Message.id, headerOctet_eq hm (i := 0) rfl, headerOctet_eq hm (i := 1) rfl, Octets.u16_ofU16]
  have hqd : m.questionCount = UInt16.ofNat d.questions.length := by
    rw [Message.questionCount, headerOctet_eq hm (i := 4) rfl, headerOctet_eq hm (i := 5) rfl, Octets.u16_ofU16]
  have han : m.answerCount = UInt16.ofNat d.records.length := by
    rw [Message.answerCount, headerOctet_eq hm (i := 6) rfl, headerOctet_eq hm (i := 7) rfl, Octets.u16_ofU16]
  refine ⟨hid, ?_, ?_, ?_, ?_, ?_, ?_, ?_, ?_, ?_⟩
  · rw [Message.isResponse, h2, hresponse]
  · rw [Message.opcode, h2, hopcode]
  · rw [Message.truncated, h2, htruncated]
  · rw [Message.recursionDesired, h2, hdesired]
  · rw [Message.rcode, h3, hcodes]
  · rw [hqd, UInt16.toNat_ofNat']
    omega
  · rw [han, UInt16.toNat_ofNat']
    omega
  · rw [Message.authorityCount, headerOctet_eq hm (i := 8) rfl, headerOctet_eq hm (i := 9) rfl]
    rfl
  · rw [Message.additionalCount, headerOctet_eq hm (i := 10) rfl, headerOctet_eq hm (i := 11) rfl]
    rfl

end Reading

/-! ## Questions and answers -/

section Body

variable (m : Message)

/-- A pointer to the first name of a message is read as this name. -/
theorem nameAt?_of_pointer {name : Name} (hname : name.Valid)
    (h : m.octets.slice? headerSize name.wire.length = some name.wire) {c : Nat} (hc : headerSize < c)
    (hp : m.octets.slice? c Writer.firstNamePointer.length = some Writer.firstNamePointer) :
    Reader.nameAt? m c = .ok (name, c + Writer.firstNamePointer.length) := by
  obtain ⟨-, labels, hs, hw⟩ := Reader.nameAt?_of_slice? m hname h
  have hget := (Octets.slice?_eq_some_iff_getElem? _ _ (by decide)).1 hp
  have hhi : m.octets[c]? = some 0xc0 := hget 0 (by decide)
  have hlo : m.octets[c + 1]? = some 0x0c := hget 1 (by decide)
  obtain ⟨-, -, -, hlen⟩ := hname
  exact (Reader.nameAt?_ok_iff _ _ _ _).2
    ((Name.readFrom_ok_iff _ _ _ _ _ _).2 ⟨[headerSize], labels, .pointer hhi hlo (by decide) rfl hc hs, hw, hlen⟩)

/-- Questions that stand in a message as they are written are read. -/
theorem readQuestions_of_toList {qs : List Question} (hqs : ∀ q ∈ qs, q.qname.Valid) {a c : List UInt8}
    (h : m.octets.toList = a ++ qs.flatMap (·.pieces.flatten) ++ c) :
    (Reader.mk m a.length).readQuestions qs.length =
      .ok (qs, ⟨m, (a ++ qs.flatMap (·.pieces.flatten)).length⟩) := by
  induction qs generalizing a with
  | nil => simp [Reader.readQuestions]
  | cons q qs ih =>
    obtain ⟨hq, hqs⟩ := List.forall_mem_cons.1 hqs
    rw [List.flatMap_cons, ← List.append_assoc] at h ⊢
    have hslice : m.octets.slice? a.length q.pieces.flatten.length = some q.pieces.flatten := by
      rw [List.append_assoc] at h
      exact Octets.slice?_of_toList h
    obtain ⟨hread, -⟩ := Reader.readQuestion_of_slice? m hq hslice
    have hrest := ih hqs h
    have hcursor : (a ++ q.pieces.flatten).length = a.length + q.pieces.flatten.length := List.length_append
    rw [hcursor] at hrest
    rw [List.length_cons]
    simp only [Reader.readQuestions, bind, Except.bind, hread, hrest]
    rfl

variable {firstName : Option Name}

/-- An answer that stands in a message as it is written is read, if the first name asked about stands behind the header. -/
theorem readRecord_of_slice? {x : Record} (hx : x.owner.Valid) (hdata : x.data.length ≤ maxMessageSize) {c : Nat}
    (hfirst : ∀ name, firstName = some name →
      headerSize < c ∧ m.octets.slice? headerSize name.wire.length = some name.wire)
    (h : m.octets.slice? c (recordOctets firstName x).length = some (recordOctets firstName x)) :
    (Reader.mk m c).readRecord = .ok (x, ⟨m, c + (recordOctets firstName x).length⟩) := by
  unfold recordOctets Writer.answerPieces at h ⊢
  generalize howner : (if firstName = some x.owner then Writer.firstNamePointer else x.owner.wire) = owner at h ⊢
  simp only [List.flatten_cons, List.flatten_nil, List.append_nil] at h ⊢
  obtain ⟨hname, h⟩ := (Octets.slice?_append _ _ _ _).1 h
  obtain ⟨htype, h⟩ := (Octets.slice?_append _ _ _ _).1 h
  obtain ⟨hclass, h⟩ := (Octets.slice?_append _ _ _ _).1 h
  obtain ⟨httl, h⟩ := (Octets.slice?_append _ _ _ _).1 h
  obtain ⟨hlength, hslice⟩ := (Octets.slice?_append _ _ _ _).1 h
  have hread : Reader.nameAt? m c = .ok (x.owner, c + owner.length) := by
    by_cases hsame : firstName = some x.owner
    · rw [if_pos hsame] at howner
      subst howner
      obtain ⟨hc, hstands⟩ := hfirst x.owner hsame
      exact nameAt?_of_pointer m hx hstands hc hname
    · rw [if_neg hsame] at howner
      subst howner
      exact (Reader.nameAt?_of_slice? m hx hname).1
  have hcount : (UInt16.ofNat x.data.length).toNat = x.data.length := by
    have hmax : maxMessageSize = 65535 := rfl
    rw [UInt16.toNat_ofNat']
    omega
  simp only [Octets.length_ofU16, Octets.length_ofU32] at htype hclass httl hlength hslice
  have hstop : c + (owner ++ (Octets.ofU16 x.type.code ++ (Octets.ofU16 x.cls.code ++ (Octets.ofU32 x.ttl.seconds ++
      (Octets.ofU16 (UInt16.ofNat x.data.length) ++ x.data))))).length = c + owner.length + 10 + x.data.length := by
    simp only [List.length_append, Octets.length_ofU16, Octets.length_ofU32]
    omega
  refine (Reader.readRecord_ok_iff _ _ _ _).2 ⟨c + owner.length, x.ttl.seconds, UInt16.ofNat x.data.length, hread,
    Octets.u16At?_of_slice? htype, Octets.u16At?_of_slice? hclass, Octets.u32At?_of_slice? httl,
    (Ttl.ofWire_seconds _).symm, Octets.u16At?_of_slice? hlength, ?_, ?_⟩
  · rw [hcount]
    exact hslice
  · rw [hstop, hcount]

/-- Answers that stand in a message as they are written are read, if the first name asked about stands behind the header. -/
theorem readRecords_of_toList {xs : List Record}
    (hxs : ∀ x ∈ xs, x.owner.Valid ∧ x.data.length ≤ maxMessageSize) {a : List UInt8}
    (hfirst : ∀ name, firstName = some name →
      headerSize < a.length ∧ m.octets.slice? headerSize name.wire.length = some name.wire) {c : List UInt8}
    (h : m.octets.toList = a ++ xs.flatMap (recordOctets firstName) ++ c) :
    (Reader.mk m a.length).readRecords xs.length =
      .ok (xs, ⟨m, (a ++ xs.flatMap (recordOctets firstName)).length⟩) := by
  induction xs generalizing a with
  | nil => simp [Reader.readRecords]
  | cons x xs ih =>
    obtain ⟨⟨hx, hdata⟩, hxs⟩ := List.forall_mem_cons.1 hxs
    rw [List.flatMap_cons, ← List.append_assoc] at h ⊢
    have hslice : m.octets.slice? a.length (recordOctets firstName x).length = some (recordOctets firstName x) := by
      rw [List.append_assoc] at h
      exact Octets.slice?_of_toList h
    have hread := readRecord_of_slice? m hx hdata hfirst hslice
    have hrest := ih hxs (fun name hname => ⟨Nat.lt_of_lt_of_le (hfirst name hname).1 (by simp), (hfirst name hname).2⟩) h
    have hcursor : (a ++ recordOctets firstName x).length = a.length + (recordOctets firstName x).length :=
      List.length_append
    rw [hcursor] at hrest
    exact (Reader.readRecords_succ_ok_iff _ _ _ _).2 ⟨x, _, xs, hread, hrest, rfl⟩

end Body

/-- The header of a draft has the size of a header. -/
theorem length_header (d : Draft) : d.header.length = headerSize :=
  rfl

/-- The first name that a draft asks about stands behind the header, and in front of the answers. -/
theorem slice?_firstName {d : Draft} {m : Message} (hm : m.octets.toList = d.octets) {name : Name}
    (hname : d.firstName = some name) :
    headerSize < (d.header ++ d.questions.flatMap (·.pieces.flatten)).length ∧
      m.octets.slice? headerSize name.wire.length = some name.wire := by
  rw [firstName, Option.map_eq_some_iff] at hname
  obtain ⟨q, hq, rfl⟩ := hname
  obtain ⟨qs, hqs⟩ := List.head?_eq_some_iff.1 hq
  rw [octets, body, hqs, List.flatMap_cons] at hm
  have hpieces : q.pieces.flatten = q.qname.wire ++ (Octets.ofU16 q.qtype.code ++ Octets.ofU16 q.qclass.code) := by
    simp [Question.pieces]
  constructor
  · rw [hqs, List.flatMap_cons, hpieces]
    simp only [List.length_append, length_header, Octets.length_ofU16]
    omega
  · rw [← length_header d]
    rw [hpieces] at hm
    simp only [List.append_assoc] at hm
    rw [← List.append_assoc] at hm
    exact Octets.slice?_of_toList hm

/-- A message that says what a draft is to say is read as the draft, to its end. -/
theorem reads_of_octets {d : Draft} (hvalid : d.Valid) {m : Message} (hm : m.octets.toList = d.octets) :
    d.Reads m d.octets.length := by
  obtain ⟨hid, hresponse, hopcode, htruncated, hdesired, hrcode, hquestions, hanswers, hauthority, hadditional⟩ :=
    header_fields hm hvalid
  refine ⟨hid, hresponse, hopcode, htruncated, hdesired, hrcode, hquestions, hanswers, hauthority, hadditional, ?_⟩
  have hoctets := hm
  rw [octets, body, ← List.append_assoc] at hm ⊢
  refine ⟨⟨m, (d.header ++ d.questions.flatMap (·.pieces.flatten)).length⟩, ?_, ?_⟩
  · rw [hquestions]
    exact readQuestions_of_toList m hvalid.questions hm
  · rw [hanswers]
    exact readRecords_of_toList m hvalid.records (fun name hname => slice?_firstName hoctets hname)
      (hm.trans (List.append_nil _).symm)

end Draft

end DnsRelay
