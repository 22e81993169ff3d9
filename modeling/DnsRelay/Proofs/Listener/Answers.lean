import DnsRelay.Proofs.Listener.Brief
import DnsRelay.Proofs.Listener.Echo

/-!
# How every message of a client is answered

The main result, `handle_exact`, is about every message, every listener and everything that can come of the query if it is
relayed: whether there is a reply, what is in it, and how long it is.
-/

namespace DnsRelay

namespace Reply

/-! ## What a client takes in one datagram -/

/-- Among the next `n` records the reader reaches one for extensions, and the first such record has this class. -/
def Reaches (n : Nat) (r : Reader) (size : Nat) : Prop :=
  ∃ before r' x r'', before.length < n ∧ r.readRecords before.length = .ok (before, r') ∧
    (∀ y ∈ before, y.type ≠ RRType.opt) ∧ r'.readRecord = .ok (x, r'') ∧ x.type = RRType.opt ∧ x.cls.code.toNat = size

/-- A query announces a size: reading its questions and then its records reaches one for extensions, and the first such record
has this class. -/
def Announces (query : Message) (size : Nat) : Prop :=
  ∃ qs r, (Reader.ofMessage query).readQuestions query.questionCount.toNat = .ok (qs, r) ∧
    Reaches (query.answerCount.toNat + query.authorityCount.toNat + query.additionalCount.toNat) r size

/-- The first record for extensions is the next one, or it comes behind one that is none. -/
theorem reaches_succ_iff (n : Nat) (r : Reader) (size : Nat) :
    Reaches (n + 1) r size ↔ ∃ x r₁, r.readRecord = .ok (x, r₁) ∧
      (x.type = RRType.opt ∧ x.cls.code.toNat = size ∨ x.type ≠ RRType.opt ∧ Reaches n r₁ size) := by
  constructor
  · rintro ⟨before, r', x, r'', hlt, hbefore, hnone, hx, ht, hs⟩
    cases before with
    | nil =>
      cases hbefore
      exact ⟨x, r'', hx, Or.inl ⟨ht, hs⟩⟩
    | cons y ys =>
      obtain ⟨y', r₁, ys', hy, hys, he⟩ := (Reader.readRecords_succ_ok_iff ys.length r r' _).1 hbefore
      cases he
      refine ⟨y, r₁, hy, Or.inr ⟨hnone y List.mem_cons_self, ys, r', x, r'', Nat.lt_of_succ_lt_succ hlt, hys, ?_, hx, ht, hs⟩⟩
      exact fun z hz => hnone z (List.mem_cons_of_mem _ hz)
  · rintro ⟨x, r₁, hx, ⟨ht, hs⟩ | ⟨ht, before, r', x', r'', hlt, hbefore, hnone, hx', ht', hs⟩⟩
    · exact ⟨[], r, x, r₁, Nat.succ_pos n, rfl, nofun, hx, ht, hs⟩
    · refine ⟨x :: before, r', x', r'', Nat.succ_lt_succ hlt, ?_, ?_, hx', ht', hs⟩
      · exact (Reader.readRecords_succ_ok_iff before.length r r' _).2 ⟨x, r₁, before, hx, hbefore, rfl⟩
      · intro y hy
        rcases List.mem_cons.1 hy with rfl | hy
        · exact ht
        · exact hnone y hy

/-- The size that is announced is the class of the first record for extensions that is reached. -/
theorem announcedSize?_eq_some_iff (n : Nat) (r : Reader) (size : Nat) :
    announcedSize? n r = some size ↔ Reaches n r size := by
  induction n generalizing r with
  | zero => simp [announcedSize?, Reaches]
  | succ n ih =>
    rw [reaches_succ_iff, announcedSize?]
    cases hx : r.readRecord with
    | error e => simp
    | ok found =>
      obtain ⟨x, r₁⟩ := found
      by_cases ht : x.type = RRType.opt
      · simp [ht]
      · simp [ht, ih]

/-- What the sender of a query takes in one datagram is 512 octets, or what it announces if that is more. -/
theorem payloadSize_eq (query : Message) :
    (∀ size, Announces query size → payloadSize query = max defaultPayloadSize size) ∧
      ((∀ size, ¬Announces query size) → payloadSize query = defaultPayloadSize) := by
  unfold payloadSize Announces
  simp only [← announcedSize?_eq_some_iff]
  cases (Reader.ofMessage query).readQuestions query.questionCount.toNat with
  | error e => simp
  | ok found =>
    obtain ⟨qs, r⟩ := found
    generalize query.answerCount.toNat + query.authorityCount.toNat + query.additionalCount.toNat = n
    cases ha : announcedSize? n r with
    | none => simp [ha]
    | some size => simp [ha]

/-- No client takes less than 512 octets. -/
theorem le_payloadSize (query : Message) : defaultPayloadSize ≤ payloadSize query := by
  unfold payloadSize
  split
  · exact Nat.le_refl _
  · exact Nat.le_max_left _ _

/-! ## Relayed responses -/

/-- A response as the client gets it is as long as the response, and its header differs from that of the response in the id
only. -/
theorem restore_header (received : Message) (q : Question) (response : Octets) :
    (restore received q response).size = response.size ∧
      ∀ k, 2 ≤ k → k < headerSize → (restore received q response)[k]? = response[k]? := by
  have hbody := Octets.sameBody_setId (named q response) received.id
  rw [← restore_eq] at hbody
  obtain ⟨hsize, hheader⟩ := named_header q response
  exact ⟨hbody.size.trans hsize, fun k hk hk' => (hbody.body k hk).trans (hheader k hk')⟩

/-- A response as the client gets it is a response if the response is one, with the id of the client and the code of the
response. -/
theorem exists_restored (received : Message) (q : Question) (m : Message) :
    ∃ m' : Message, m'.octets = restore received q m.octets ∧ m'.isResponse = m.isResponse ∧ m'.id = received.id ∧
      m'.rcode = m.rcode := by
  obtain ⟨hsize, hheader⟩ := restore_header received q m.octets
  let m' : Message := ⟨restore received q m.octets, by rw [hsize]; exact m.hasHeader⟩
  have hoctet : ∀ i : Fin 12, 2 ≤ i.val → m'.headerOctet i = m.headerOctet i := by
    intro i hi
    have hlt : i.val < m.octets.size := Nat.lt_of_lt_of_le i.isLt m.hasHeader
    exact m'.headerOctet_of_getElem? ((hheader i.val hi i.isLt).trans (Array.getElem?_eq_getElem hlt))
  refine ⟨m', rfl, (Message.fields_eq hoctet).1, ?_, ?_⟩
  · have hnamed : 2 ≤ (named q m.octets).size := by
      rw [(named_header q m.octets).1]
      exact Nat.le_trans (by decide) m.hasHeader
    obtain ⟨h0, h1⟩ := Octets.getElem?_setId (named q m.octets) hnamed received.id
    rw [← restore_eq] at h0 h1
    rw [Message.id, m'.headerOctet_of_getElem? (i := 0) h0, m'.headerOctet_of_getElem? (i := 1) h1]
    exact Octets.u16_ofU16 received.id
  · rw [Message.rcode, Message.rcode, hoctet 3 (by decide)]

/-- A reply that the one who sent `received` can take: it is a response with the id of `received`, its length can be announced in
two octets, and as a datagram it is no longer than the sender takes. -/
structure Fits (reply received : Message) (transport : Transport) : Prop where
  isResponse : reply.isResponse = true
  id : reply.id = received.id
  size : reply.octets.size ≤ maxMessageSize
  datagram : transport = .udp → reply.octets.size ≤ payloadSize received

/-- A reply that the relay makes itself can be taken by everyone. -/
theorem fits_of_brief {m received : Message} {question : Option Question} {rcode : Rcode} {truncated : Bool}
    (hsize : m.octets.size ≤ defaultPayloadSize) (h : m.Brief received question rcode truncated) (transport : Transport) :
    Fits m received transport where
  isResponse := h.isResponse
  id := h.id
  size := Nat.le_trans hsize (by decide)
  datagram := fun _ => Nat.le_trans hsize (le_payloadSize received)

end Reply

/-- A response that can be read is one by its header. -/
theorem Response.exists_message {octets : Octets} {source : Endpoint} {response : Response}
    (h : parse? octets source = .ok response) :
    ∃ m : Message, m.octets = octets ∧ m.isResponse = true ∧ m.rcode = response.rcode := by
  obtain ⟨m, qs, r, xs, r', hm, hresponse, -, -, rfl⟩ := (parse?_ok_iff _ _ _).1 h
  exact ⟨m, (Message.ofOctets?_eq_some_iff _ _).1 hm, hresponse, rfl⟩

namespace Listener

variable {σ : Type}

/-! ## What comes of a query that is forwarded -/

/-- What can come of a query that is relayed: an error, or a response of at most 65535 octets that was accepted for it, and so can
be read. -/
def Accepted (result : Except ForwardError Octets) : Prop :=
  ∀ response, result = .ok response →
    response.size ≤ maxMessageSize ∧ ∃ source answer, Response.parse? response source = .ok answer

section Conclude

variable (l : Listener) (transport : Transport) (client : Endpoint) (m : Message) {q : Question}

/-- A listener that is told to be silent gives no reply to a query that was not answered in time. -/
theorem conclude_silent (hpolicy : l.timeoutPolicy = .silent) :
    (l.conclude transport client m q (.error .timedOut)).1 = none := by
  simp [conclude, hpolicy]

/-- Otherwise the client of a query that was not answered is told that the servers failed. -/
theorem conclude_servFail (hq : q.qname.Valid) {e : ForwardError} (he : ¬(e = .timedOut ∧ l.timeoutPolicy = .silent)) :
    ∃ m' : Message, (l.conclude transport client m q (.error e)).1 = some m'.octets ∧
      m'.octets.size ≤ Reply.defaultPayloadSize ∧ m'.Brief m (some q) .servFail false := by
  have hvalid : ∀ x, some q = some x → x.qname.Valid := by
    rintro x ⟨rfl⟩
    exact hq
  obtain ⟨m', hshort, hsize, hbrief⟩ := Reply.short_brief m (some q) .servFail false hvalid rfl
  exact ⟨m', by rw [conclude, if_neg he, hshort], hsize, hbrief⟩

/-- In place of a response that is too long for a datagram the client gets its code and is told to ask again. -/
theorem conclude_truncated (hq : q.qname.Valid) {response : Message} (hudp : transport = .udp)
    (hlong : Reply.payloadSize m < response.octets.size) :
    ∃ m' : Message, (l.conclude transport client m q (.ok response.octets)).1 = some m'.octets ∧
      m'.octets.size ≤ Reply.defaultPayloadSize ∧ m'.Brief m (some q) response.rcode true := by
  have hvalid : ∀ x, some q = some x → x.qname.Valid := by
    rintro x ⟨rfl⟩
    exact hq
  obtain ⟨m', hshort, hsize, hbrief⟩ :=
    Reply.short_brief m (some q) response.rcode true hvalid (Rcode.ofOctet_toOctet _)
  obtain ⟨restored, hrestored, -, -, hrcode⟩ := Reply.exists_restored m q response
  have hcode : Reply.rcodeOf (Reply.restore m q response.octets) = response.rcode := by
    rw [Reply.rcodeOf, (Message.ofOctets?_eq_some_iff _ restored).2 hrestored]
    exact hrcode
  refine ⟨m', ?_, hsize, hbrief⟩
  rw [conclude, (Reply.restore_header m q response.octets).1, if_pos ⟨hudp, hlong⟩, hcode, hshort]

/-- Every other response is relayed. -/
theorem conclude_relayed {response : Octets} (hfits : ¬(transport = .udp ∧ Reply.payloadSize m < response.size)) :
    (l.conclude transport client m q (.ok response)).1 = some (Reply.restore m q response) := by
  rw [conclude, (Reply.restore_header m q response).1, if_neg hfits]

/-- There is no reply iff the query was not answered in time and the listener is silent then. -/
theorem conclude_eq_none_iff (hq : q.qname.Valid) {result : Except ForwardError Octets} (haccepted : Accepted result) :
    (l.conclude transport client m q result).1 = none ↔ result = .error .timedOut ∧ l.timeoutPolicy = .silent := by
  cases result with
  | error e =>
    by_cases he : e = .timedOut ∧ l.timeoutPolicy = .silent
    · obtain ⟨rfl, hpolicy⟩ := he
      simp [conclude_silent l transport client m hpolicy, hpolicy]
    · obtain ⟨m', hm', -⟩ := conclude_servFail l transport client m hq he
      simpa [hm'] using he
  | ok response =>
    obtain ⟨-, source, answer, hp⟩ := haccepted response rfl
    obtain ⟨answered, rfl, -, -⟩ := Response.exists_message hp
    by_cases hlong : transport = .udp ∧ Reply.payloadSize m < answered.octets.size
    · obtain ⟨m', hm', -⟩ := conclude_truncated l transport client m hq hlong.1 hlong.2
      simp [hm']
    · simp [conclude_relayed l transport client m hlong]

/-- Whatever came of a query, the client can take the reply. -/
theorem conclude_fits (hq : q.qname.Valid) {result : Except ForwardError Octets} (haccepted : Accepted result)
    {octets : Octets} (h : (l.conclude transport client m q result).1 = some octets) :
    ∃ m' : Message, m'.octets = octets ∧ Reply.Fits m' m transport := by
  cases result with
  | error e =>
    by_cases he : e = .timedOut ∧ l.timeoutPolicy = .silent
    · obtain ⟨rfl, hpolicy⟩ := he
      rw [conclude_silent l transport client m hpolicy] at h
      cases h
    · obtain ⟨m', hm', hsize, hbrief⟩ := conclude_servFail l transport client m hq he
      rw [hm'] at h
      cases h
      exact ⟨m', rfl, Reply.fits_of_brief hsize hbrief transport⟩
  | ok response =>
    obtain ⟨hmax, source, answer, hp⟩ := haccepted response rfl
    obtain ⟨answered, rfl, hresponse, -⟩ := Response.exists_message hp
    by_cases hlong : transport = .udp ∧ Reply.payloadSize m < answered.octets.size
    · obtain ⟨m', hm', hsize, hbrief⟩ := conclude_truncated l transport client m hq hlong.1 hlong.2
      rw [hm'] at h
      cases h
      exact ⟨m', rfl, Reply.fits_of_brief hsize hbrief transport⟩
    · rw [conclude_relayed l transport client m hlong] at h
      cases h
      obtain ⟨m', hm', hresponse', hid, -⟩ := Reply.exists_restored m q answered
      have hsize := (Reply.restore_header m q answered.octets).1
      rw [← hm'] at hsize
      refine ⟨m', hm', ⟨by rw [hresponse', hresponse], hid, by rw [hsize]; exact hmax, fun hudp => ?_⟩⟩
      rw [hsize]
      exact Nat.not_lt.1 fun hlt => hlong ⟨hudp, hlt⟩

end Conclude

/-! ## What is done with a message -/

/-- Finding a route leaves the policy as it is. -/
theorem routeOf_timeoutPolicy (l : Listener) (send : Sender σ) (s : σ) (q : Question) (client : Endpoint) :
    (l.routeOf send s q client).2.2.1.timeoutPolicy = l.timeoutPolicy := by
  unfold routeOf
  split
  · rfl
  · split
    · rfl
    · unfold probe
      dsimp only
      split
      · rfl
      · split <;> rfl

/-- The reply to a query that is forwarded depends on what comes of it and on the policy of the listener. -/
theorem handle_relayed (l : Listener) (send : Sender σ) (s : σ) {r : Received} {m : Message} {q : Question}
    (ht : triage r.octets r.client.canonical = .forward m q) :
    (l.handle send s r).1 = (l.conclude r.transport r.client.canonical m q (l.relayed send s r q)).1 := by
  rw [handle_forward l send s ht]
  unfold conclude
  rw [routeOf_timeoutPolicy]

section Handle

variable (l : Listener) (send : Sender σ) (s : σ) {r : Received} {m : Message}

/-- A message without a full header gets no reply. -/
theorem handle_of_lt (h : r.octets.size < headerSize) : (l.handle send s r).1 = none := by
  have hnone : Message.ofOctets? r.octets = none := dif_neg (Nat.not_le.2 h)
  simp only [handle, triage, hnone]

/-- A response gets no reply. -/
theorem handle_of_isResponse (hm : m.octets = r.octets) (hr : m.isResponse = true) : (l.handle send s r).1 = none := by
  simp only [handle, triage, (Message.ofOctets?_eq_some_iff _ _).2 hm, hr, if_true]

/-- What is no query is refused. -/
theorem handle_of_opcode (hm : m.octets = r.octets) (hr : m.isResponse = false) (ho : m.opcode ≠ .query) :
    ∃ m' : Message, (l.handle send s r).1 = some m'.octets ∧ m'.octets.size ≤ Reply.defaultPayloadSize ∧
      m'.Brief m none .notImp false := by
  obtain ⟨m', hshort, hsize, hbrief⟩ := Reply.short_brief m none .notImp false nofun rfl
  refine ⟨m', ?_, hsize, hbrief⟩
  simp only [handle, triage, (Message.ofOctets?_eq_some_iff _ _).2 hm, hr, Bool.false_eq_true, if_false, if_pos ho, hshort]

/-- A query with more or less than one question is refused. -/
theorem handle_of_questionCount (hm : m.octets = r.octets) (hr : m.isResponse = false) (ho : m.opcode = .query)
    (hc : m.questionCount ≠ 1) :
    ∃ m' : Message, (l.handle send s r).1 = some m'.octets ∧ m'.octets.size ≤ Reply.defaultPayloadSize ∧
      m'.Brief m none .formErr false := by
  obtain ⟨m', hshort, hsize, hbrief⟩ := Reply.short_brief m none .formErr false nofun rfl
  refine ⟨m', ?_, hsize, hbrief⟩
  simp only [handle, triage, (Message.ofOctets?_eq_some_iff _ _).2 hm, hr, Bool.false_eq_true, if_false, ho, ne_eq,
    not_true_eq_false, if_pos hc, hshort]

/-- A query whose question cannot be read gets no reply. -/
theorem handle_of_unreadable (hm : m.octets = r.octets) (hr : m.isResponse = false) (ho : m.opcode = .query)
    (hc : m.questionCount = 1) {e : ReadError} (he : (Reader.ofMessage m).readQuestion = .error e) :
    (l.handle send s r).1 = none := by
  simp [handle, triage, (Message.ofOctets?_eq_some_iff _ _).2 hm, hr, ho, hc, he]

/-- A query with one question is answered by what comes of it. -/
theorem handle_of_question (hm : m.octets = r.octets) (hr : m.isResponse = false) (ho : m.opcode = .query)
    (hc : m.questionCount = 1) {q : Question} {rest : Reader} (hq : (Reader.ofMessage m).readQuestion = .ok (q, rest)) :
    triage r.octets r.client.canonical = .forward m q ∧
      (l.handle send s r).1 = (l.conclude r.transport r.client.canonical m q (l.relayed send s r q)).1 := by
  have ht : triage r.octets r.client.canonical = .forward m q :=
    (triage_eq_forward_iff _ _ _ _).2 ⟨(Message.ofOctets?_eq_some_iff _ _).2 hm, hr, ho, hc, rest, hq⟩
  exact ⟨ht, handle_relayed l send s ht⟩

variable {l send s} (haccepted : ∀ m q, triage r.octets r.client.canonical = .forward m q → Accepted (l.relayed send s r q))
include haccepted

/-- Which messages get no reply. -/
theorem handle_eq_none_iff :
    (l.handle send s r).1 = none ↔ r.octets.size < headerSize ∨ ∃ m : Message, m.octets = r.octets ∧
      (m.isResponse = true ∨ m.opcode = .query ∧ m.questionCount = 1 ∧
        ((∃ e, (Reader.ofMessage m).readQuestion = .error e) ∨
          ∃ q rest, (Reader.ofMessage m).readQuestion = .ok (q, rest) ∧ l.relayed send s r q = .error .timedOut ∧
            l.timeoutPolicy = .silent)) := by
  constructor
  · intro hnone
    by_cases hlt : r.octets.size < headerSize
    · exact Or.inl hlt
    · obtain ⟨m, hm⟩ : ∃ m : Message, m.octets = r.octets := ⟨⟨r.octets, Nat.not_lt.1 hlt⟩, rfl⟩
      refine Or.inr ⟨m, hm, ?_⟩
      cases hr : m.isResponse with
      | true => exact Or.inl rfl
      | false =>
        have ho : m.opcode = .query := by
          by_contra ho
          obtain ⟨m', hsome, -⟩ := handle_of_opcode l send s hm hr ho
          rw [hsome] at hnone
          cases hnone
        have hc : m.questionCount = 1 := by
          by_contra hc
          obtain ⟨m', hsome, -⟩ := handle_of_questionCount l send s hm hr ho hc
          rw [hsome] at hnone
          cases hnone
        refine Or.inr ⟨ho, hc, ?_⟩
        cases hq : (Reader.ofMessage m).readQuestion with
        | error e => exact Or.inl ⟨e, rfl⟩
        | ok found =>
          obtain ⟨q, rest⟩ := found
          obtain ⟨ht, hreply⟩ := handle_of_question l send s hm hr ho hc hq
          rw [hreply, conclude_eq_none_iff l _ _ m (Reader.valid_of_readQuestion hq) (haccepted m q ht)] at hnone
          exact Or.inr ⟨q, rest, rfl, hnone⟩
  · rintro (hlt | ⟨m, hm, h⟩)
    · exact handle_of_lt l send s hlt
    · cases hr : m.isResponse with
      | true => exact handle_of_isResponse l send s hm hr
      | false =>
        rcases h with h | ⟨ho, hc, ⟨e, he⟩ | ⟨q, rest, hq, hresult, hpolicy⟩⟩
        · rw [hr] at h
          cases h
        · exact handle_of_unreadable l send s hm hr ho hc he
        · rw [(handle_of_question l send s hm hr ho hc hq).2, hresult]
          exact conclude_silent l _ _ m hpolicy

/-- Whoever sent a message can take the reply. -/
theorem handle_fits {octets : Octets} (h : (l.handle send s r).1 = some octets) :
    ∃ m m' : Message, m.octets = r.octets ∧ m'.octets = octets ∧ Reply.Fits m' m r.transport := by
  have hle : headerSize ≤ r.octets.size := by
    by_contra hlt
    rw [handle_of_lt l send s (Nat.not_le.1 hlt)] at h
    cases h
  obtain ⟨m, hm⟩ : ∃ m : Message, m.octets = r.octets := ⟨⟨r.octets, hle⟩, rfl⟩
  have hr : m.isResponse = false := by
    rw [← Bool.not_eq_true]
    intro hr
    rw [handle_of_isResponse l send s hm hr] at h
    cases h
  refine ⟨m, ?_⟩
  by_cases ho : m.opcode = .query
  · by_cases hc : m.questionCount = 1
    · cases hq : (Reader.ofMessage m).readQuestion with
      | error e =>
        rw [handle_of_unreadable l send s hm hr ho hc hq] at h
        cases h
      | ok found =>
        obtain ⟨q, rest⟩ := found
        obtain ⟨ht, hreply⟩ := handle_of_question l send s hm hr ho hc hq
        rw [hreply] at h
        obtain ⟨m', hm', hfits⟩ := conclude_fits l _ _ m (Reader.valid_of_readQuestion hq) (haccepted m q ht) h
        exact ⟨m', hm, hm', hfits⟩
    · obtain ⟨m', hsome, hsize, hbrief⟩ := handle_of_questionCount l send s hm hr ho hc
      rw [hsome] at h
      cases h
      exact ⟨m', hm, rfl, Reply.fits_of_brief hsize hbrief _⟩
  · obtain ⟨m', hsome, hsize, hbrief⟩ := handle_of_opcode l send s hm hr ho
    rw [hsome] at h
    cases h
    exact ⟨m', hm, rfl, Reply.fits_of_brief hsize hbrief _⟩

end Handle

/-- Every message of a client is answered as it should be.
1. There is no reply iff the message is too short, a response or unreadable, or its query timed out and the listener is silent
then.
2. Otherwise the reply is a header or the question with a code, or the response restored, or cut short if too long.
3. Replies have the client's id and fit.
4. What fits a datagram is 512 octets, or more if announced. -/
theorem handle_exact (l : Listener) (send : Sender σ) (s : σ) (r : Received)
    (haccepted : ∀ m q, triage r.octets r.client.canonical = .forward m q → Accepted (l.relayed send s r q)) :
    let reply := (l.handle send s r).1
    let result := l.relayed send s r
    (reply = none ↔ r.octets.size < headerSize ∨ ∃ m : Message, m.octets = r.octets ∧ (m.isResponse = true ∨
      m.opcode = .query ∧ m.questionCount = 1 ∧ ((∃ e, (Reader.ofMessage m).readQuestion = .error e) ∨
        ∃ q rest, (Reader.ofMessage m).readQuestion = .ok (q, rest) ∧ result q = .error .timedOut ∧
          l.timeoutPolicy = .silent))) ∧
    (∀ m : Message, m.octets = r.octets → m.isResponse = false →
      (m.opcode ≠ .query → ∃ m' : Message, reply = some m'.octets ∧ m'.octets.size = headerSize ∧
        m'.Brief m none .notImp false) ∧
      (m.opcode = .query → m.questionCount ≠ 1 → ∃ m' : Message, reply = some m'.octets ∧ m'.octets.size = headerSize ∧
        m'.Brief m none .formErr false) ∧
      (m.opcode = .query → m.questionCount = 1 → ∀ q rest, (Reader.ofMessage m).readQuestion = .ok (q, rest) →
        (∀ e, result q = .error e → ¬(e = .timedOut ∧ l.timeoutPolicy = .silent) →
          ∃ m' : Message, reply = some m'.octets ∧ m'.Brief m (some q) .servFail false) ∧
        (∀ response source answer, result q = .ok response → Response.parse? response source = .ok answer →
          (r.transport = .udp ∧ Reply.payloadSize m < response.size →
            ∃ m' : Message, reply = some m'.octets ∧ m'.Brief m (some q) answer.rcode true) ∧
          (¬(r.transport = .udp ∧ Reply.payloadSize m < response.size) →
            reply = some (Reply.restore m q response))))) ∧
    (∀ octets, reply = some octets → ∃ m m' : Message, m.octets = r.octets ∧ m'.octets = octets ∧
      Reply.Fits m' m r.transport) ∧
    (∀ query : Message, (∀ size, Reply.Announces query size → Reply.payloadSize query = max 512 size) ∧
      ((∀ size, ¬Reply.Announces query size) → Reply.payloadSize query = 512)) := by
  intro reply result
  refine ⟨handle_eq_none_iff haccepted, ?_, fun octets h => handle_fits haccepted h, Reply.payloadSize_eq⟩
  intro m hm hr
  refine ⟨fun ho => ?_, fun ho hc => ?_, fun ho hc q rest hq => ?_⟩
  · obtain ⟨m', hsome, -, hbrief⟩ := handle_of_opcode l send s hm hr ho
    exact ⟨m', hsome, hbrief.size_of_none, hbrief⟩
  · obtain ⟨m', hsome, -, hbrief⟩ := handle_of_questionCount l send s hm hr ho hc
    exact ⟨m', hsome, hbrief.size_of_none, hbrief⟩
  · have hvalid : q.qname.Valid := Reader.valid_of_readQuestion hq
    have hreply : reply = (l.conclude r.transport r.client.canonical m q (result q)).1 :=
      (handle_of_question l send s hm hr ho hc hq).2
    rw [hreply]
    constructor
    · intro e he hpolicy
      rw [he]
      obtain ⟨m', hsome, -, hbrief⟩ := conclude_servFail l r.transport r.client.canonical m hvalid hpolicy
      exact ⟨m', hsome, hbrief⟩
    · intro response source answer hok hp
      rw [hok]
      obtain ⟨answered, rfl, -, hrcode⟩ := Response.exists_message hp
      constructor
      · rintro ⟨hudp, hlong⟩
        obtain ⟨m', hsome, -, hbrief⟩ := conclude_truncated l r.transport r.client.canonical m hvalid hudp hlong
        rw [hrcode] at hbrief
        exact ⟨m', hsome, hbrief⟩
      · intro hfits
        exact conclude_relayed l r.transport r.client.canonical m hfits

/-- A query for the addresses of `a.` goes out as one for `A.`, and is answered in time. The answer fits into a datagram, so the
client gets it with its own id and its own name in it. -/
theorem handle_exact_relayed :
    let octets : Octets := #[66, 66, 1, 0, 0, 1, 0, 0, 0, 0, 0, 0, 1, 97, 0, 0, 1, 0, 1]
    let q : Question := ⟨⟨[1, 97, 0]⟩, RRType.a, RRClass.internet⟩
    let response : Octets := #[0, 7, 129, 128, 0, 1, 0, 1, 0, 0, 0, 0, 1, 65, 0, 0, 1, 0, 1, 192, 12, 0, 1, 0, 1, 0, 0, 0, 60,
      0, 4, 192, 0, 2, 1]
    let c : Conditions := ⟨0, ⟨fun _ => ⟨7, by decide⟩, fun _ => true⟩, none, fun _ => [.datagram response (.v4 1 53)]⟩
    let f : { f : Forwarder // f.Reachable } := ⟨.start ⟨1000, 1, true⟩ ⟨64, none⟩, _, _, [], rfl⟩
    let l : Listener := ⟨⟨.v4 1 53, .udp⟩, none, none, .servFail, false⟩
    let r : Received := ⟨octets, .v4 2 53, .udp⟩
    (∀ m q, triage octets (.v4 2 53) = .forward m q → Accepted (l.relayed (Forwarder.sender fun _ _ => c) f r q)) ∧
      l.relayed (Forwarder.sender fun _ _ => c) f r q = .ok response ∧
      (l.handle (Forwarder.sender fun _ _ => c) f r).1 = some #[66, 66, 129, 128, 0, 1, 0, 1, 0, 0, 0, 0, 1, 97, 0, 0, 1, 0, 1,
        192, 12, 0, 1, 0, 1, 0, 0, 0, 60, 0, 4, 192, 0, 2, 1] := by
  intro octets q response c f l r
  let m : Message := ⟨octets, by decide⟩
  have ht : triage octets (.v4 2 53) = .forward m q := by cbv
  have hrelayed : l.relayed (Forwarder.sender fun _ _ => c) f r q = .ok response := by cbv
  have hp : Response.parse? response (.v4 1 53) = .ok ⟨7, .noError, false, some ⟨⟨[1, 65, 0]⟩, RRType.a, RRClass.internet⟩,
      [⟨⟨[1, 65, 0]⟩, RRType.a, RRClass.internet, Ttl.ofWire 60, [192, 0, 2, 1]⟩], .v4 1 53⟩ := by cbv
  have haccepted : ∀ m q, triage octets (.v4 2 53) = .forward m q →
      Accepted (l.relayed (Forwarder.sender fun _ _ => c) f r q) := by
    intro m' q' ht'
    rw [ht] at ht'
    cases ht'
    rw [hrelayed]
    rintro _ ⟨rfl⟩
    exact ⟨by decide, _, _, hp⟩
  refine ⟨haccepted, hrelayed, ?_⟩
  obtain ⟨-, hr, ho, hc, rest, hq⟩ := (triage_eq_forward_iff _ _ _ _).1 ht
  obtain ⟨-, hanswers, -, -⟩ := handle_exact l (Forwarder.sender fun _ _ => c) f r haccepted
  have hshort : ¬(Transport.udp = .udp ∧ Reply.payloadSize m < response.size) := by
    rintro ⟨-, hlong⟩
    exact absurd (Nat.lt_of_le_of_lt (Reply.le_payloadSize m) hlong) (by decide)
  rw [(((hanswers m rfl hr).2.2 ho hc q rest hq).2 response _ _ hrelayed hp).2 hshort]
  cbv

end Listener

end DnsRelay
