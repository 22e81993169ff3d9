import DnsRelay.Proofs.Listener.Reply

/-!
# Replies that the relay makes itself

Such a reply is a header and at most a question (`Message.Brief`). The main result, `Reply.short_brief`, says that one can be made
for every message, every code and every question that was read.
-/

namespace DnsRelay

/-- The message is a reply to `received` that the relay makes itself. It is a response with the id and the opcode of `received` and
with the code and the truncation bit that are given; it asks for recursion if `received` is a query that does; and it holds the
question, if one is given, and nothing else. -/
structure Message.Brief (m received : Message) (question : Option Question) (rcode : Rcode) (truncated : Bool) : Prop where
  isResponse : m.isResponse = true
  id : m.id = received.id
  opcode : m.opcode = received.opcode
  recursionDesired : m.recursionDesired = (decide (received.opcode = .query) && received.recursionDesired)
  rcode : m.rcode = rcode
  truncated : m.truncated = truncated
  questionCount : m.questionCount.toNat = question.toList.length
  answerCount : m.answerCount = 0
  authorityCount : m.authorityCount = 0
  additionalCount : m.additionalCount = 0
  reads : (Reader.ofMessage m).readQuestions m.questionCount.toNat = .ok (question.toList, ⟨m, m.octets.size⟩)

/-- A reply without a question is a header. -/
theorem Message.Brief.size_of_none {m received : Message} {rcode : Rcode} {truncated : Bool}
    (h : m.Brief received none rcode truncated) : m.octets.size = headerSize := by
  have hreads := h.reads
  rw [h.questionCount] at hreads
  exact (congrArg (fun found => found.2.cursor) (Except.ok.inj hreads)).symm

/-- A code that was read is read again from its four bits. -/
theorem Rcode.ofOctet_toOctet : ∀ b : UInt8, ofOctet (ofOctet b).toOctet = ofOctet b :=
  Octet.forall_of_lt (by decide +kernel)

/-- Setting bits changes one octet. -/
theorem Writer.getElem?_setBits (w : Writer) (index : Nat) (mask bits : UInt8) (k : Nat) :
    (w.setBits index mask bits).buffer[k]? =
      if index = k then w.buffer[k]?.map fun b => (b &&& ~~~mask) ||| bits else w.buffer[k]? :=
  Array.getElem?_modify ..

namespace Reply

/-! ## The header -/

/-- What the third octet of a header becomes when it is marked as a response, with an opcode and, for a query, with the bit that
asks for recursion. -/
def marked (opcode : Opcode) (desired : Bool) (b : UInt8) : UInt8 :=
  let b := (b &&& ~~~Header.responseBit) ||| Header.responseBit
  let b := (b &&& ~~~Header.opcodeBits) ||| (opcode.toOctet <<< 3)
  if opcode = .query then
    (b &&& ~~~Header.recursionDesiredBit) ||| (if desired then Header.recursionDesiredBit else 0)
  else b

/-- What the third octet of a header becomes in a reply that the relay makes itself. -/
def flags (opcode : Opcode) (desired truncated : Bool) (b : UInt8) : UInt8 :=
  (marked opcode desired b &&& ~~~Header.truncationBit) ||| (if truncated then Header.truncationBit else 0)

/-- What the fourth octet of a header becomes in a reply that the relay makes itself. -/
def codes (rcode : Rcode) (b : UInt8) : UInt8 :=
  let b := (b &&& ~~~Header.recursionAvailableBit) ||| Header.recursionAvailableBit
  (b &&& ~~~Header.rcodeBits) ||| (rcode.toOctet &&& Header.rcodeBits)

/-- What the flags are read as, for an opcode that was read. -/
theorem flags_zero (desired truncated : Bool) : ∀ b : UInt8,
    let opcode := Opcode.ofOctet b
    let flags := flags opcode desired truncated 0
    (flags &&& Header.responseBit != 0) = true ∧ Opcode.ofOctet ((flags &&& Header.opcodeBits) >>> 3) = opcode ∧
      (flags &&& Header.recursionDesiredBit != 0) = (decide (opcode = .query) && desired) ∧
      (flags &&& Header.truncationBit != 0) = truncated := by
  refine Octet.forall_of_lt ?_
  revert desired truncated
  decide +kernel

/-- The code is read from the four bits it is written into. -/
theorem codes_zero (rcode : Rcode) :
    Rcode.ofOctet (codes rcode 0 &&& Header.rcodeBits) = Rcode.ofOctet rcode.toOctet := by
  have hbits : ∀ b : UInt8, Rcode.ofOctet
      ((((0 &&& ~~~Header.recursionAvailableBit ||| Header.recursionAvailableBit) &&& ~~~Header.rcodeBits) |||
        (b &&& Header.rcodeBits)) &&& Header.rcodeBits) = Rcode.ofOctet b :=
    Octet.forall_of_lt (by decide +kernel)
  exact hbits rcode.toOctet

/-- The header of a reply that the relay makes itself has the id, two octets of flags and codes, and the counts as they were. -/
theorem getElem?_setHeader (received : Message) (rcode : Rcode) (truncated : Bool) (w : Writer) (k : Nat) :
    (setHeader received rcode truncated w).buffer[k]? =
      if k = 2 then (w.setId received.id).buffer[k]?.map (flags received.opcode received.recursionDesired truncated)
      else if k = 3 then (w.setId received.id).buffer[k]?.map (codes rcode)
      else (w.setId received.id).buffer[k]? := by
  unfold setHeader
  dsimp only
  generalize w.setId received.id = w
  have hmarked : (if received.opcode = .query then
      ((w.setResponse true).setOpcode received.opcode).setRecursionDesired received.recursionDesired
      else (w.setResponse true).setOpcode received.opcode).buffer[k]? =
      if k = 2 then w.buffer[k]?.map (marked received.opcode received.recursionDesired) else w.buffer[k]? := by
    unfold marked
    split
    · simp only [Writer.setResponse, Writer.setOpcode, Writer.setRecursionDesired, Writer.setFlag,
        Writer.getElem?_setBits, eq_comm (a := k)]
      split <;> simp [Function.comp_def]
    · simp only [Writer.setResponse, Writer.setOpcode, Writer.setFlag, Writer.getElem?_setBits, eq_comm (a := k)]
      split <;> simp [Function.comp_def]
  simp only [Writer.setRecursionAvailable, Writer.setTruncated, Writer.setRcode, Writer.setFlag, Writer.getElem?_setBits,
    hmarked]
  by_cases h2 : k = 2
  · subst h2
    simp only [Nat.reduceEqDiff, if_true, if_false, Option.map_map, Function.comp_def]
    rfl
  · by_cases h3 : k = 3
    · subst h3
      simp only [Nat.reduceEqDiff, if_true, if_false, Option.map_map, Function.comp_def]
      rfl
    · simp [h2, h3, Ne.symm h2, Ne.symm h3]

/-- A message that begins with the header of a reply that the relay makes itself is read as one. -/
theorem header_fields {w : Writer} (hzero : ∀ k < headerSize, w.buffer[k]? = some 0) (received : Message) (rcode : Rcode)
    (truncated : Bool) {m : Message}
    (hfront : ∀ k < 4, m.octets[k]? = (setHeader received rcode truncated w).buffer[k]?) :
    m.isResponse = true ∧ m.id = received.id ∧ m.opcode = received.opcode ∧
      m.recursionDesired = (decide (received.opcode = .query) && received.recursionDesired) ∧
      m.rcode = Rcode.ofOctet rcode.toOctet ∧ m.truncated = truncated := by
  have hsize : headerSize ≤ w.buffer.size := (Array.getElem?_eq_some_iff.1 (hzero 11 (by decide))).1
  have hid : ∀ k < 2, (w.setId received.id).buffer[0 + k]? = (Octets.ofU16 received.id)[k]? := by
    intro k hk
    have hlen := Octets.length_ofU16 received.id
    exact Octets.getElem?_overwrite_of_lt w.buffer (by rw [hlen]; exact Nat.le_trans (by decide) hsize) (by rwa [hlen])
  have hrest : ∀ k, 2 ≤ k → k < headerSize → (w.setId received.id).buffer[k]? = some 0 := by
    intro k hk hk'
    rw [← hzero k hk']
    exact Octets.getElem?_overwrite_of_not w.buffer (Or.inr (by rw [Octets.length_ofU16]; omega))
  have h0 : m.octets[0]? = _ := (hfront 0 (by decide)).trans ((getElem?_setHeader ..).trans (hid 0 Nat.two_pos))
  have h1 : m.octets[1]? = _ := (hfront 1 (by decide)).trans ((getElem?_setHeader ..).trans (hid 1 Nat.one_lt_two))
  have h2 := (hfront 2 (by decide)).trans (getElem?_setHeader ..)
  have h3 := (hfront 3 (by decide)).trans (getElem?_setHeader ..)
  rw [if_pos rfl, hrest 2 (by decide) (by decide), Option.map_some] at h2
  rw [if_neg (by decide), if_pos rfl, hrest 3 (by decide) (by decide), Option.map_some] at h3
  obtain ⟨hresponse, hopcode, hdesired, htruncated⟩ := flags_zero received.recursionDesired truncated
    ((received.headerOctet 2 &&& Header.opcodeBits) >>> 3)
  refine ⟨?_, ?_, ?_, ?_, ?_, ?_⟩
  · rw [Message.isResponse, m.headerOctet_of_getElem? (i := 2) h2]
    exact hresponse
  · rw [Message.id, m.headerOctet_of_getElem? (i := 0) h0, m.headerOctet_of_getElem? (i := 1) h1]
    exact Octets.u16_ofU16 received.id
  · rw [Message.opcode, m.headerOctet_of_getElem? (i := 2) h2]
    exact hopcode
  · rw [Message.recursionDesired, m.headerOctet_of_getElem? (i := 2) h2]
    exact hdesired
  · rw [Message.rcode, m.headerOctet_of_getElem? (i := 3) h3]
    exact codes_zero rcode
  · rw [Message.truncated, m.headerOctet_of_getElem? (i := 2) h2]
    exact htruncated

/-! ## The whole reply -/

/-- A reply that the relay makes itself can be made, and is short enough for every client. -/
theorem short_brief (received : Message) (question : Option Question) (rcode : Rcode) (truncated : Bool)
    (hq : ∀ q, question = some q → q.qname.Valid) (hrcode : Rcode.ofOctet rcode.toOctet = rcode) :
    ∃ m : Message, short received question rcode truncated = some m.octets ∧ m.octets.size ≤ defaultPayloadSize ∧
      m.Brief received question rcode truncated := by
  have hsize : (Array.replicate defaultPayloadSize (0 : UInt8)).size = defaultPayloadSize := Array.size_replicate
  obtain ⟨w, hw, hblank, hlimit, hzero⟩ := Writer.exists_make hsize (by decide)
  have hheaded := setHeader_headed hblank hlimit received rcode truncated
  have hfields := @header_fields w hzero received rcode truncated
  rw [hrcode] at hfields
  unfold short
  rw [hw]
  dsimp only
  generalize setHeader received rcode truncated w = w₁ at hheaded hfields
  cases question with
  | none =>
    obtain ⟨m, hoctets, hsize, hquestions, hanswers, hauthority, hadditional, hfront⟩ := hheaded.blank.message
    obtain ⟨hresponse, hid, hopcode, hdesired, hcode, htruncated⟩ :=
      hfields fun k hk => hfront k (Nat.lt_of_lt_of_le hk (by decide))
    refine ⟨m, by rw [hoctets], by rw [hsize]; decide, ⟨hresponse, hid, hopcode, hdesired, hcode, htruncated, ?_, hanswers,
      hauthority, hadditional, ?_⟩⟩
    · rw [hquestions]
      rfl
    · rw [hquestions, hsize]
      rfl
  | some q =>
    have hvalid : q.qname.Valid := hq q rfl
    have hfit : headerSize + q.pieces.flatten.length ≤ defaultPayloadSize := Question.length_pieces_le hvalid
    obtain ⟨w', m, hadd, hoctets, hsize, hreads, hasking, hauthority, hadditional, hfront⟩ :=
      hheaded.blank.addQuestion_message hvalid (by rw [hheaded.limit]; exact hfit)
    obtain ⟨hresponse, hid, hopcode, hdesired, hcode, htruncated⟩ := hfields hfront
    simp only [hadd]
    refine ⟨m, by rw [hoctets], by rw [hsize]; exact hfit, ⟨hresponse, hid, hopcode, hdesired, hcode, htruncated, ?_,
      hasking.answerCount, hauthority, hadditional, ?_⟩⟩
    · rw [hasking.questionCount]
      rfl
    · rw [hasking.questionCount]
      refine (Reader.readQuestions_one _).trans ?_
      rw [hreads, hsize]
      rfl

end Reply

end DnsRelay
