import DnsRelay.Listener.Reply
import DnsRelay.Proofs.Forward.Sending
import DnsRelay.Proofs.Message.Writing

/-!
# What a client reads in its reply

A reply echoes a question if it is read as a response with this question and no other. The replies that the relay makes itself
echo the question of the client (`short_echoes`). A relayed response that asked for the same name echoes the question of the
client under every id if it is restorable (`Restorable.echoes`), and under some ids only then (`restorable_of_echoes`).
-/

namespace DnsRelay.Reply

/-- The octets are read as a response with this question and no other, wherever they come from. -/
def Echoes (reply : Octets) (q : Question) : Prop :=
  ∀ source, ∃ response, Response.parse? reply source = .ok response ∧ response.Echoes q

/-- A response whose name is written as the client wrote it, if that can be done. -/
def named (q : Question) (response : Octets) : Octets :=
  (response.overwriteName? q.qname).getD response

/-- What it takes to put the id and the name of a client into a response. The name of the question is the one of the client
already, in the same case, or it is written out. With the name of the client in its place, neither the name of the question nor
the owner of an answer goes through the id, and the answers can be read. -/
structure Restorable (q : Question) (response : Octets) : Prop where
  plain : Forwarder.Asks response q ∨ ∃ labels stop, Name.Spelled response headerSize headerSize [] labels stop
  avoids : ∃ m : Message, m.octets = named q response ∧ Name.AvoidsId m.octets headerSize ∧
    ∃ q' r, (Reader.ofMessage m).readQuestion = .ok (q', r) ∧ Reader.RecordsAvoidId m.answerCount.toNat r

/-- A reply echoes a question iff it is a response with one question, which is this one, and its answers can be read. -/
theorem echoes_iff (reply : Octets) (q : Question) :
    Echoes reply q ↔ ∃ m : Message, m.octets = reply ∧ m.isResponse = true ∧ m.questionCount = 1 ∧
      ∃ r, (Reader.ofMessage m).readQuestion = .ok (q, r) ∧
        ∃ xs r', r.readRecords m.answerCount.toNat = .ok (xs, r') := by
  simp only [Echoes, Response.Echoes, Response.parse?_echoes_iff, Message.ofOctets?_eq_some_iff]
  exact ⟨fun h => h (.v4 0 0), fun h _ => h⟩

/-- What is read as a response with a question, from one source, echoes it. -/
theorem echoes_of_parse {reply : Octets} {source : Endpoint} {response : Response} {q : Question}
    (hp : Response.parse? reply source = .ok response) (hq : response.Echoes q) : Echoes reply q := by
  have h := (Response.parse?_echoes_iff reply source q).1 ⟨response, hp, hq⟩
  simpa only [echoes_iff, Message.ofOctets?_eq_some_iff] using h

/-! ## Replies that the relay makes itself -/

/-- An octet marks a response iff its highest bit is set. -/
theorem marks_iff : ∀ b : UInt8, b &&& Header.responseBit ≠ 0 ↔ b.toBitVec[7] = true :=
  Octet.forall_of_lt (by decide +kernel)

/-- The writer of a reply that the relay makes itself, before a question is added: the flags mark a response. -/
structure Headed (w : Writer) : Prop where
  blank : w.Blank
  limit : w.limit = defaultPayloadSize
  marked : ∃ b, w.buffer[2]? = some b ∧ b &&& Header.responseBit ≠ 0

/-- Setting other flags leaves the mark. -/
theorem Headed.setBits {w : Writer} (h : Headed w) {index : Nat} (hindex : index < 4) {mask : UInt8}
    (hmask : index = 2 → mask &&& Header.responseBit = 0) (bits : UInt8) : Headed (w.setBits index mask bits) := by
  refine ⟨h.blank.setBits hindex mask bits, h.limit, ?_⟩
  obtain ⟨b, hb, hbit⟩ := h.marked
  rw [Writer.setBits, Array.getElem?_modify, hb]
  by_cases h2 : index = 2
  · rw [if_pos h2]
    refine ⟨_, rfl, ?_⟩
    have hm : mask.toBitVec[7] = false := by
      rw [← Bool.not_eq_true, ← marks_iff, not_not]
      exact hmask h2
    rw [marks_iff] at hbit ⊢
    simp [hbit, hm]
  · rw [if_neg h2]
    exact ⟨b, rfl, hbit⟩

/-- The header of a reply that the relay makes itself marks a response. -/
theorem setHeader_headed {w : Writer} (h : w.Blank) (hlimit : w.limit = defaultPayloadSize) (received : Message)
    (rcode : Rcode) (truncated : Bool) : Headed (setHeader received rcode truncated w) := by
  have hresponse : Headed ((w.setId received.id).setResponse true) := by
    have hid := h.setId received.id
    refine ⟨hid.setBits (by decide) _ _, hlimit, ?_⟩
    have hsize : 2 < (w.setId received.id).buffer.size := by
      rw [hid.size]
      exact Nat.lt_of_lt_of_le (by decide) hid.room
    rw [Writer.setResponse, Writer.setFlag, Writer.setBits, Array.getElem?_modify, if_pos rfl,
      Array.getElem?_eq_getElem hsize]
    refine ⟨_, rfl, ?_⟩
    rw [marks_iff]
    simp [Header.responseBit]
  have hopcode : Headed (((w.setId received.id).setResponse true).setOpcode received.opcode) :=
    hresponse.setBits (by decide) (by decide) _
  unfold setHeader
  dsimp only
  generalize ((w.setId received.id).setResponse true).setOpcode received.opcode = w₁ at hopcode
  have hdesired : Headed (if received.opcode = .query then w₁.setRecursionDesired received.recursionDesired else w₁) := by
    split
    · exact hopcode.setBits (by decide) (by decide) _
    · exact hopcode
  generalize (if received.opcode = .query then w₁.setRecursionDesired received.recursionDesired else w₁) = w₂ at hdesired
  have havailable : Headed (w₂.setRecursionAvailable true) := hdesired.setBits (by decide) (by decide) _
  have htruncated : Headed ((w₂.setRecursionAvailable true).setTruncated truncated) :=
    havailable.setBits (by decide) (by decide) _
  exact htruncated.setBits (by decide) (by decide) _

/-- A reply that the relay makes itself echoes the question given for it. -/
theorem short_echoes (received : Message) {q : Question} (hq : q.qname.Valid) (rcode : Rcode) (truncated : Bool) :
    ∃ reply, short received (some q) rcode truncated = some reply ∧ Echoes reply q := by
  have hsize : (Array.replicate defaultPayloadSize (0 : UInt8)).size = defaultPayloadSize := Array.size_replicate
  obtain ⟨w, hw, hblank, hlimit, -⟩ := Writer.exists_make hsize (by decide)
  have hheaded := setHeader_headed hblank hlimit received rcode truncated
  obtain ⟨w', m, hadd, hoctets, hasking, hfront⟩ :=
    hheaded.blank.addQuestion hq (by rw [hheaded.limit]; exact Question.length_pieces_le hq)
  have hshort : short received (some q) rcode truncated = some w'.octets := by
    unfold short
    rw [hw]
    simp only [hadd]
  refine ⟨w'.octets, hshort, (echoes_iff _ _).2 ⟨m, hoctets.symm, ?_, hasking.questionCount, ?_⟩⟩
  · obtain ⟨b, hb, hbit⟩ := hheaded.marked
    rw [Message.isResponse, m.headerOctet_of_getElem? (i := 2) ((hfront 2 (by decide)).trans hb)]
    simpa using hbit
  · obtain ⟨r, hr⟩ := hasking.reads
    refine ⟨r, hr, [], r, ?_⟩
    rw [hasking.answerCount]
    rfl

/-! ## Relayed responses -/

/-- The id does not matter for putting the name into a response. -/
theorem named_setId (q : Question) (response : Octets) (id : UInt16) :
    named q (response.setId id) = (named q response).setId id := by
  unfold named
  rw [Octets.overwriteName?_setId]
  cases response.overwriteName? q.qname with
  | none => rfl
  | some octets => rfl

/-- The id and the name can be put into a response in either order. -/
theorem restore_eq (received : Message) (q : Question) (response : Octets) :
    restore received q response = (named q response).setId received.id :=
  named_setId q response received.id

/-- A response with the name of a client in it is as long as the response and has its header. -/
theorem named_header (q : Question) (response : Octets) :
    (named q response).size = response.size ∧ ∀ k < headerSize, (named q response)[k]? = response[k]? := by
  unfold named
  cases ho : response.overwriteName? q.qname with
  | none => exact ⟨rfl, fun _ _ => rfl⟩
  | some octets =>
    obtain ⟨rfl, -⟩ := (Octets.overwriteName?_eq_some_iff _ _ _).1 ho
    exact ⟨Octets.size_overwrite _ _ _, fun k hk => Octets.getElem?_overwrite_of_not _ (Or.inl hk)⟩

/-- A response with the name of a client in it has the flags and the counts of the response. -/
theorem named_fields {q : Question} {m m₁ : Message} (hm₁ : m₁.octets = named q m.octets) :
    m₁.isResponse = m.isResponse ∧ m₁.questionCount = m.questionCount ∧ m₁.answerCount = m.answerCount := by
  refine Message.fields_eq fun i _ => m₁.headerOctet_of_getElem? ?_
  have hlt : i.val < m.octets.size := Nat.lt_of_lt_of_le i.isLt m.hasHeader
  rw [hm₁, (named_header q m.octets).2 i.val i.isLt]
  exact Array.getElem?_eq_getElem hlt

/-- A response with the name of a client in it is a message. -/
theorem exists_named (q : Question) (m : Message) : ∃ m₁ : Message, m₁.octets = named q m.octets := by
  refine ⟨⟨named q m.octets, ?_⟩, rfl⟩
  rw [(named_header q m.octets).1]
  exact m.hasHeader

/-- A restorable response with the name of the client in it asks the question of the client. -/
theorem Restorable.readQuestion {q asked : Question} (hq : q.qname.Valid) (hsame : asked.same q = true) {m m₁ : Message}
    (hr : Restorable q m.octets) (hm₁ : m₁.octets = named q m.octets) {r : Reader}
    (hread : (Reader.ofMessage m).readQuestion = .ok (asked, r)) :
    ∃ r₁, (Reader.ofMessage m₁).readQuestion = .ok (q, r₁) := by
  obtain ⟨⟨hname, htype⟩, hclass⟩ : (asked.qname.same q.qname = true ∧ asked.qtype = q.qtype) ∧
      asked.qclass = q.qclass := by
    simpa [Question.same] using hsame
  unfold named at hm₁
  cases ho : m.octets.overwriteName? q.qname with
  | some octets =>
    rw [ho, Option.getD_some] at hm₁
    rw [← hm₁] at ho
    obtain ⟨hread₁, -, -⟩ := Reader.readQuestion_of_overwriteName? hq ho hread
    rw [htype, hclass] at hread₁
    exact ⟨_, hread₁⟩
  | none =>
    rw [ho, Option.getD_none] at hm₁
    rw [Message.eq_of_octets hm₁]
    rcases hr.plain with hasks | ⟨labels, stop, hs⟩
    · obtain ⟨m₂, hm₂, r₂, hread₂⟩ := (Forwarder.SendingAux.asks_iff _ _).1 hasks
      rw [Message.eq_of_octets hm₂] at hread₂
      exact ⟨r₂, hread₂⟩
    · -- a name that is written out could have been replaced
      obtain ⟨stop', hn, -⟩ := (Reader.readQuestion_ok_iff _ _ _ _).1 hread
      obtain ⟨runs, labels', hs', hw, -⟩ :=
        (Name.readFrom_ok_iff _ _ _ _ _ _).1 ((Reader.nameAt?_ok_iff _ _ _ _).1 hn)
      obtain ⟨-, rfl, -⟩ := hs.unique hs'
      rw [List.nil_append] at hw
      rw [Name.same, hw] at hname
      have hsome := Octets.overwriteName?_isSome hs hname
      rw [ho] at hsome
      cases hsome

/-- A response that asks for the name of a client in some case and is restorable echoes the question of the client, under
every id. -/
theorem Restorable.echoes {q asked : Question} (hq : q.qname.Valid) (hsame : asked.same q = true) {response : Octets}
    (h : Echoes response asked) (hr : Restorable q response) (received : Message) :
    Echoes (restore received q response) q := by
  obtain ⟨m, rfl, hresponse, hcount, r, hread, -⟩ := (echoes_iff _ _).1 h
  obtain ⟨m₁, hm₁, havoids, q', r₁, hread₁, hrecords⟩ := hr.avoids
  obtain ⟨r', hread'⟩ := hr.readQuestion hq hsame hm₁ hread
  rw [hread₁] at hread'
  cases hread'
  obtain ⟨m₂, hm₂⟩ := m₁.exists_setId received.id
  have hbody : m₁.octets.SameBody m₂.octets := hm₂ ▸ Octets.sameBody_setId m₁.octets received.id
  obtain ⟨stop, hn, -, -, rfl⟩ := (Reader.readQuestion_ok_iff _ _ _ _).1 hread₁
  have hlt := Reader.lt_of_nameAt? hn
  obtain ⟨hresponse₁, hcount₁, -⟩ := named_fields hm₁
  obtain ⟨hresponse₂, hcount₂, hanswers₂⟩ := Message.fields_eq (Reader.headerOctet_eq hbody)
  obtain ⟨xs, r₂, hxs⟩ := hrecords.readRecords hbody (show 2 ≤ stop + 4 by omega)
  refine (echoes_iff _ _).2 ⟨m₂, by rw [hm₂, hm₁, restore_eq], by rw [hresponse₂, hresponse₁, hresponse],
    by rw [hcount₂, hcount₁, hcount], _, Reader.readQuestion_of_avoidsId hbody (by decide) havoids hread₁, xs, r₂, ?_⟩
  rw [hanswers₂]
  exact hxs

/-- A response that echoes the question of a client, under an id at whose octets no run can start, is restorable. -/
theorem restorable_of_echoes {q asked : Question} (hq : q.qname.Valid) {response : Octets} (h : Echoes response asked)
    {received : Message} (hid : received.id = 0x4040) (he : Echoes (restore received q response) q) :
    Restorable q response := by
  obtain ⟨m, rfl, -, -, -⟩ := (echoes_iff _ _).1 h
  obtain ⟨m₂, hm₂, -, -, r₂, hread₂, xs, r', hxs⟩ := (echoes_iff _ _).1 he
  obtain ⟨m₁, hm₁⟩ := exists_named q m
  rw [restore_eq, ← hm₁, hid] at hm₂
  have hbody : m₁.octets.SameBody m₂.octets := hm₂ ▸ Octets.sameBody_setId m₁.octets 0x4040
  obtain ⟨h0, h1⟩ := Octets.getElem?_setId m₁.octets (Nat.le_trans (by decide) m₁.hasHeader) 0x4040
  rw [← hm₂] at h0 h1
  obtain ⟨havoids, hread₁⟩ := Reader.avoidsId_of_readQuestion hbody h0 h1 (by decide) hread₂
  obtain ⟨stop, hn, -, -, rfl⟩ := (Reader.readQuestion_ok_iff _ _ _ _).1 hread₂
  have hlt := Reader.lt_of_nameAt? hn
  refine ⟨?_, m₁, hm₁, havoids, q, _, hread₁, ?_⟩
  · unfold named at hm₁
    cases ho : m.octets.overwriteName? q.qname with
    | none =>
      rw [ho] at hm₁
      exact Or.inl ((Forwarder.SendingAux.asks_iff _ _).2 ⟨m₁, hm₁, _, hread₁⟩)
    | some octets =>
      obtain ⟨-, labels, hs, -⟩ := Octets.readFrom_of_overwriteName? hq ho
      exact Or.inr ⟨labels, _, hs⟩
  · rw [← (Message.fields_eq (Reader.headerOctet_eq hbody)).2.2]
    exact Reader.recordsAvoidId_of_readRecords hbody h0 h1 (show 2 ≤ stop + 4 by omega) hxs

end DnsRelay.Reply
