import DnsRelay.Response
import DnsRelay.Proofs.Message.Patch

/-!
# What reading a message depends on

Reading a question or a record is reading a name and the fields behind it. A name that avoids the id reads the same under
every id, and so does what stands behind it: `Reader.RecordsAvoidId` says that the next records can be read and that none of
their owners goes through the id.
-/

namespace DnsRelay

/-- Octets that hold a header are a message. -/
theorem Message.ofOctets?_eq_some_iff (octets : Octets) (m : Message) : ofOctets? octets = some m ↔ m.octets = octets := by
  unfold ofOctets?
  obtain ⟨body, hasHeader⟩ := m
  constructor
  · intro h
    split at h
    · cases h
      rfl
    · cases h
  · rintro rfl
    simp [hasHeader]

/-- A message is its octets. -/
theorem Message.eq_of_octets {m m' : Message} (h : m.octets = m'.octets) : m = m' := by
  cases m
  cases m'
  cases h
  rfl

/-- A message under another id is a message. -/
theorem Message.exists_setId (m : Message) (id : UInt16) : ∃ m' : Message, m'.octets = m.octets.setId id :=
  ⟨⟨m.octets.setId id, by rw [(Octets.sameBody_setId m.octets id).size]; exact m.hasHeader⟩, rfl⟩

/-- An octet of the header is the one that stands in its place. -/
theorem Message.headerOctet_of_getElem? (m : Message) {i : Fin 12} {b : UInt8} (h : m.octets[i.val]? = some b) :
    m.headerOctet i = b := by
  have hlt : i.val < m.octets.size := Nat.lt_of_lt_of_le i.isLt m.hasHeader
  rw [Array.getElem?_eq_getElem hlt] at h
  exact Option.some.inj h

/-- The flags and the counts of a message are in its header behind the id. -/
theorem Message.fields_eq {m m' : Message} (h : ∀ i : Fin 12, 2 ≤ i.val → m'.headerOctet i = m.headerOctet i) :
    m'.isResponse = m.isResponse ∧ m'.questionCount = m.questionCount ∧ m'.answerCount = m.answerCount := by
  refine ⟨?_, ?_, ?_⟩
  · rw [isResponse, isResponse, h 2 (by decide)]
  · rw [questionCount, questionCount, h 4 (by decide), h 5 (by decide)]
  · rw [answerCount, answerCount, h 6 (by decide), h 7 (by decide)]

namespace Reader

/-- The next `n` records can be read, and none of their owners goes through the id. -/
def RecordsAvoidId : Nat → Reader → Prop
  | 0, _ => True
  | n + 1, r => Name.AvoidsId r.message.octets r.cursor ∧ ∃ x r', r.readRecord = .ok (x, r') ∧ RecordsAvoidId n r'

/-- A name is read at a place iff it is spelled there. -/
theorem nameAt?_ok_iff (m : Message) (start : Nat) (name : Name) (stop : Nat) :
    nameAt? m start = .ok (name, stop) ↔ Name.Compressed.readFrom m.octets start start [] = .ok (name, stop) := by
  unfold nameAt? Name.decode?
  cases h : Name.Compressed.readFrom m.octets start start [] with
  | error e => simp [Except.map]
  | ok found =>
    obtain ⟨name', stop'⟩ := found
    obtain ⟨runs, labels, hs, -⟩ := (Name.readFrom_ok_iff _ _ _ _ _ _).1 h
    have hlt := hs.stop_le.1
    have he : start + (stop' - start) = stop' := by omega
    simp [Except.map, he]

/-- A question is a name and two fields behind it. -/
theorem readQuestion_ok_iff (m : Message) (c : Nat) (q : Question) (r : Reader) :
    (Reader.mk m c).readQuestion = .ok (q, r) ↔ ∃ stop, nameAt? m c = .ok (q.qname, stop) ∧
      m.octets.u16At? stop = some q.qtype.code ∧ m.octets.u16At? (stop + 2) = some q.qclass.code ∧
      r = ⟨m, stop + 4⟩ := by
  obtain ⟨qname, ⟨qtype⟩, ⟨qclass⟩⟩ := q
  unfold readQuestion fieldAt?
  simp only [bind, Except.bind, pure, Except.pure]
  cases hn : nameAt? m c with
  | error e => simp
  | ok found =>
    obtain ⟨name, stop⟩ := found
    cases ht : m.octets.u16At? stop with
    | none => simp [ht]
    | some t =>
      cases hc : m.octets.u16At? (stop + 2) with
      | none => simp [ht, hc]
      | some c => simp [ht, hc, and_assoc, eq_comm]

/-- A record is the name of its owner, four fields behind it, and as many octets of data as the last of them says. -/
theorem readRecord_ok_iff (m : Message) (c : Nat) (x : Record) (r : Reader) :
    (Reader.mk m c).readRecord = .ok (x, r) ↔ ∃ stop ttl length, nameAt? m c = .ok (x.owner, stop) ∧
      m.octets.u16At? stop = some x.type.code ∧ m.octets.u16At? (stop + 2) = some x.cls.code ∧
      m.octets.u32At? (stop + 4) = some ttl ∧ x.ttl = Ttl.ofWire ttl ∧ m.octets.u16At? (stop + 8) = some length ∧
      m.octets.slice? (stop + 10) length.toNat = some x.data ∧ r = ⟨m, stop + 10 + length.toNat⟩ := by
  obtain ⟨owner, ⟨type⟩, ⟨cls⟩, ttl, data⟩ := x
  unfold readRecord fieldAt? wideFieldAt?
  simp only [bind, Except.bind, pure, Except.pure]
  cases hn : nameAt? m c with
  | error e => simp
  | ok found =>
    obtain ⟨name, stop⟩ := found
    cases ht : m.octets.u16At? stop with
    | none => simp [ht]
    | some t =>
      cases hc : m.octets.u16At? (stop + 2) with
      | none => simp [ht, hc]
      | some c =>
        cases hw : m.octets.u32At? (stop + 4) with
        | none => simp [ht, hc, hw]
        | some w =>
          cases hl : m.octets.u16At? (stop + 8) with
          | none => simp [ht, hc, hw, hl]
          | some l =>
            cases hd : m.octets.slice? (stop + 10) l.toNat with
            | none => simp [ht, hc, hw, hl, hd]
            | some d => simp [ht, hc, hw, hl, hd, and_assoc, eq_comm]

/-- Questions are read one after another. -/
theorem readQuestions_succ_ok_iff (n : Nat) (r r' : Reader) (qs : List Question) :
    r.readQuestions (n + 1) = .ok (qs, r') ↔
      ∃ q r₁ others, r.readQuestion = .ok (q, r₁) ∧ r₁.readQuestions n = .ok (others, r') ∧ qs = q :: others := by
  simp only [readQuestions, bind, Except.bind, pure, Except.pure]
  constructor
  · intro h
    split at h
    · cases h
    · rename_i found hq
      split at h
      · cases h
      · rename_i others hqs
        cases h
        exact ⟨found.1, found.2, others.1, hq, hqs, rfl⟩
  · rintro ⟨q, r₁, others, hq, hqs, rfl⟩
    simp only [hq, hqs]

/-- Records are read one after another. -/
theorem readRecords_succ_ok_iff (n : Nat) (r r' : Reader) (xs : List Record) :
    r.readRecords (n + 1) = .ok (xs, r') ↔
      ∃ x r₁ ys, r.readRecord = .ok (x, r₁) ∧ r₁.readRecords n = .ok (ys, r') ∧ xs = x :: ys := by
  simp only [readRecords, bind, Except.bind, pure, Except.pure]
  constructor
  · intro h
    split at h
    · cases h
    · rename_i found hx
      split at h
      · cases h
      · rename_i others hxs
        cases h
        exact ⟨found.1, found.2, others.1, hx, hxs, rfl⟩
  · rintro ⟨x, r₁, xs', hx, hxs, rfl⟩
    simp only [hx, hxs]

/-- The name of a question that is read is valid. -/
theorem valid_of_readQuestion {r r' : Reader} {q : Question} (h : r.readQuestion = .ok (q, r')) : q.qname.Valid := by
  obtain ⟨stop, hn, -⟩ := (readQuestion_ok_iff r.message r.cursor q r').1 h
  exact Name.valid_of_readFrom ((nameAt?_ok_iff _ _ _ _).1 hn)

section SameBody

variable {m m' : Message}

/-- The octets of the header behind the id are the same. -/
theorem headerOctet_eq (h : m.octets.SameBody m'.octets) (i : Fin 12) (hi : 2 ≤ i.val) :
    m'.headerOctet i = m.headerOctet i := by
  have hlt : i.val < m.octets.size := Nat.lt_of_lt_of_le i.isLt m.hasHeader
  exact Message.headerOctet_of_getElem? m' ((h.body i.val hi).trans (Array.getElem?_eq_getElem hlt))

/-- A field behind the id is the same. -/
theorem fieldAt?_eq (h : m.octets.SameBody m'.octets) {start : Nat} (hstart : 2 ≤ start) :
    fieldAt? m' start = fieldAt? m start := by
  rw [fieldAt?, fieldAt?, h.u16At?_eq hstart]

/-- A wide field behind the id is the same. -/
theorem wideFieldAt?_eq (h : m.octets.SameBody m'.octets) {start : Nat} (hstart : 2 ≤ start) :
    wideFieldAt? m' start = wideFieldAt? m start := by
  rw [wideFieldAt?, wideFieldAt?, h.u32At?_eq hstart]

/-- A place behind a name lies behind the place of the name. -/
theorem lt_of_nameAt? {start : Nat} {name : Name} {stop : Nat} (h : nameAt? m start = .ok (name, stop)) :
    start < stop := by
  obtain ⟨runs, labels, hs, -⟩ := (Name.readFrom_ok_iff _ _ _ _ _ _).1 ((nameAt?_ok_iff _ _ _ _).1 h)
  exact hs.stop_le.1

/-- A record whose owner reads the same reads the same. -/
theorem readRecord_eq (h : m.octets.SameBody m'.octets) {c : Nat} (hc : 2 ≤ c) (hn : nameAt? m' c = nameAt? m c) :
    (Reader.mk m' c).readRecord = (Reader.mk m c).readRecord.map fun found => (found.1, ⟨m', found.2.cursor⟩) := by
  unfold readRecord
  simp only [hn, bind, Except.bind]
  cases hname : nameAt? m c with
  | error e => rfl
  | ok found =>
    obtain ⟨owner, stop⟩ := found
    have hlt := lt_of_nameAt? hname
    simp only [fieldAt?_eq h (show 2 ≤ stop by omega), fieldAt?_eq h (show 2 ≤ stop + 2 by omega),
      wideFieldAt?_eq h (show 2 ≤ stop + 4 by omega), fieldAt?_eq h (show 2 ≤ stop + 8 by omega),
      h.slice?_eq (show 2 ≤ stop + 10 by omega)]
    cases fieldAt? m stop with
    | error e => rfl
    | ok type =>
      cases fieldAt? m (stop + 2) with
      | error e => rfl
      | ok cls =>
        cases wideFieldAt? m (stop + 4) with
        | error e => rfl
        | ok ttl =>
          cases fieldAt? m (stop + 8) with
          | error e => rfl
          | ok length =>
            dsimp only
            cases m.octets.slice? (stop + 10) length.toNat with
            | none => rfl
            | some data => rfl

/-- A record that is read begins with the name of its owner, and the reader goes on behind it in the same message. -/
theorem readRecord_ok {c : Nat} {x : Record} {r : Reader} (h : (Reader.mk m c).readRecord = .ok (x, r)) :
    ∃ stop, nameAt? m c = .ok (x.owner, stop) ∧ r.message = m ∧ c ≤ r.cursor := by
  obtain ⟨stop, ttl, length, hn, -, -, -, -, -, -, rfl⟩ := (readRecord_ok_iff _ _ _ _).1 h
  have hlt := lt_of_nameAt? hn
  exact ⟨stop, hn, rfl, by dsimp only; omega⟩

/-! ## Under another id -/

/-- A name that avoids the id is read under every id. -/
theorem nameAt?_of_avoidsId (h : m.octets.SameBody m'.octets) {c : Nat} (hc : 2 ≤ c) (ha : Name.AvoidsId m.octets c)
    {name : Name} {stop : Nat} (hn : nameAt? m c = .ok (name, stop)) : nameAt? m' c = .ok (name, stop) :=
  (nameAt?_ok_iff _ _ _ _).2 (ha.readFrom h.size h.body hc ((nameAt?_ok_iff _ _ _ _).1 hn))

/-- A name that is read under an id at whose octets no run can start avoids the id. -/
theorem avoidsId_of_nameAt? (h : m.octets.SameBody m'.octets) (h0 : m'.octets[0]? = some 64)
    (h1 : m'.octets[1]? = some 64) {c : Nat} (hc : 2 ≤ c) {name : Name} {stop : Nat}
    (hn : nameAt? m' c = .ok (name, stop)) : Name.AvoidsId m.octets c ∧ nameAt? m c = .ok (name, stop) := by
  obtain ⟨ha, hread⟩ := Name.avoidsId_of_readFrom h.size h.body hc h0 h1 ((nameAt?_ok_iff _ _ _ _).1 hn)
  exact ⟨ha, (nameAt?_ok_iff _ _ _ _).2 hread⟩

/-- A question whose name avoids the id is read under every id. -/
theorem readQuestion_of_avoidsId (h : m.octets.SameBody m'.octets) {c : Nat} (hc : 2 ≤ c)
    (ha : Name.AvoidsId m.octets c) {q : Question} {r : Reader} (hq : (Reader.mk m c).readQuestion = .ok (q, r)) :
    (Reader.mk m' c).readQuestion = .ok (q, ⟨m', r.cursor⟩) := by
  obtain ⟨stop, hn, ht, hcls, rfl⟩ := (readQuestion_ok_iff _ _ _ _).1 hq
  have hlt := lt_of_nameAt? hn
  refine (readQuestion_ok_iff _ _ _ _).2 ⟨stop, nameAt?_of_avoidsId h hc ha hn, ?_, ?_, rfl⟩
  · rw [h.u16At?_eq (by omega), ht]
  · rw [h.u16At?_eq (by omega), hcls]

/-- A question that is read under an id at whose octets no run can start avoids the id. -/
theorem avoidsId_of_readQuestion (h : m.octets.SameBody m'.octets) (h0 : m'.octets[0]? = some 64)
    (h1 : m'.octets[1]? = some 64) {c : Nat} (hc : 2 ≤ c) {q : Question} {r : Reader}
    (hq : (Reader.mk m' c).readQuestion = .ok (q, r)) :
    Name.AvoidsId m.octets c ∧ (Reader.mk m c).readQuestion = .ok (q, ⟨m, r.cursor⟩) := by
  obtain ⟨stop, hn, ht, hcls, rfl⟩ := (readQuestion_ok_iff _ _ _ _).1 hq
  have hlt := lt_of_nameAt? hn
  obtain ⟨ha, hn⟩ := avoidsId_of_nameAt? h h0 h1 hc hn
  refine ⟨ha, (readQuestion_ok_iff _ _ _ _).2 ⟨stop, hn, ?_, ?_, rfl⟩⟩
  · rw [← h.u16At?_eq (by omega), ht]
  · rw [← h.u16At?_eq (by omega), hcls]

/-- Records whose owners avoid the id are read under every id. -/
theorem RecordsAvoidId.readRecords (h : m.octets.SameBody m'.octets) {n c : Nat} (hc : 2 ≤ c)
    (ha : RecordsAvoidId n ⟨m, c⟩) : ∃ xs r, readRecords n ⟨m', c⟩ = .ok (xs, r) := by
  induction n generalizing c with
  | zero => exact ⟨[], _, rfl⟩
  | succ n ih =>
    obtain ⟨hid, x, r, hx, ha⟩ := ha
    obtain ⟨stop, hn, hr, hle⟩ := readRecord_ok hx
    obtain ⟨m₁, c₁⟩ := r
    dsimp only at hr hle
    subst hr
    have hx' := readRecord_eq h hc ((nameAt?_of_avoidsId h hc hid hn).trans hn.symm)
    rw [hx] at hx'
    obtain ⟨xs, r, hxs⟩ := ih (show 2 ≤ c₁ by omega) ha
    exact ⟨x :: xs, r, (readRecords_succ_ok_iff _ _ _ _).2 ⟨_, _, xs, hx', hxs, rfl⟩⟩

/-- Records that are read under an id at whose octets no run can start avoid the id. -/
theorem recordsAvoidId_of_readRecords (h : m.octets.SameBody m'.octets) (h0 : m'.octets[0]? = some 64)
    (h1 : m'.octets[1]? = some 64) {n c : Nat} (hc : 2 ≤ c) {xs : List Record} {r : Reader}
    (hr : readRecords n ⟨m', c⟩ = .ok (xs, r)) : RecordsAvoidId n ⟨m, c⟩ := by
  induction n generalizing c xs r with
  | zero => trivial
  | succ n ih =>
    obtain ⟨x, ⟨m₁, c₁⟩, xs', hx, hxs, rfl⟩ := (readRecords_succ_ok_iff _ _ _ _).1 hr
    obtain ⟨stop, hn, hm, hle⟩ := readRecord_ok hx
    dsimp only at hm hle
    subst hm
    obtain ⟨ha, hn'⟩ := avoidsId_of_nameAt? h h0 h1 hc hn
    have hx' := readRecord_eq h.symm hc (hn'.trans hn.symm)
    rw [hx] at hx'
    exact ⟨ha, x, _, hx', ih (show 2 ≤ c₁ by omega) hxs⟩

end SameBody

/-! ## Another name -/

/-- Writing another name over the name of the first question changes the name of this question and nothing else of it; the
name stands without a pointer before and after. -/
theorem readQuestion_of_overwriteName? {m m' : Message} {name : Name} (hname : name.Valid)
    (h : m.octets.overwriteName? name = some m'.octets) {q : Question} {r : Reader}
    (hq : (ofMessage m).readQuestion = .ok (q, r)) :
    (ofMessage m').readQuestion = .ok ({ q with qname := name }, ⟨m', r.cursor⟩) ∧
      Name.AvoidsId m'.octets headerSize ∧ Name.AvoidsId m.octets headerSize := by
  obtain ⟨⟨labels', hs', hw'⟩, labels, hs, -⟩ := Octets.readFrom_of_overwriteName? hname h
  have houtside : ∀ k, headerSize + name.wire.length ≤ k → m'.octets[k]? = m.octets[k]? := by
    intro k hk
    rw [((Octets.overwriteName?_eq_some_iff _ _ _).1 h).1, Octets.getElem?_overwrite_of_not _ (Or.inr hk)]
  obtain ⟨stop, hn, ht, hc, rfl⟩ := (readQuestion_ok_iff _ _ _ _).1 hq
  obtain ⟨runs, labels₁, hs₁, -⟩ := (Name.readFrom_ok_iff _ _ _ _ _ _).1 ((nameAt?_ok_iff _ _ _ _).1 hn)
  obtain ⟨-, -, rfl⟩ := hs₁.unique hs
  have hread : Name.Compressed.readFrom m'.octets headerSize headerSize [] =
      .ok (name, headerSize + name.wire.length) := by
    obtain ⟨-, -, -, hlen⟩ := hname
    exact (Name.readFrom_ok_iff _ _ _ _ _ _).2 ⟨[], labels', hs', hw', hlen⟩
  refine ⟨(readQuestion_ok_iff _ _ _ _).2 ⟨headerSize + name.wire.length, (nameAt?_ok_iff _ _ _ _).2 hread, ?_, ?_, rfl⟩,
    ?_, ?_⟩
  · rw [← ht, Octets.u16At?, Octets.u16At?, houtside _ (Nat.le_refl _), houtside _ (by omega)]
  · rw [← hc, Octets.u16At?, Octets.u16At?, houtside _ (by omega), houtside _ (by omega)]
  · intro runs' labels₂ stop' hs₂
    obtain ⟨rfl, -, -⟩ := hs'.unique hs₂
    exact List.forall_mem_nil _
  · intro runs' labels₂ stop' hs₂
    obtain ⟨rfl, -, -⟩ := hs.unique hs₂
    exact List.forall_mem_nil _

/-! ## One question -/

/-- As many questions are read as were asked for. -/
theorem length_readQuestions {n : Nat} {r : Reader} {qs : List Question} {r' : Reader}
    (h : r.readQuestions n = .ok (qs, r')) : qs.length = n := by
  induction n generalizing r qs r' with
  | zero =>
    cases h
    rfl
  | succ n ih =>
    obtain ⟨q, r₁, others, -, hqs, rfl⟩ := (readQuestions_succ_ok_iff _ _ _ _).1 h
    rw [List.length_cons, ih hqs]

/-- As many records are read as were asked for. -/
theorem length_readRecords {n : Nat} {r : Reader} {xs : List Record} {r' : Reader}
    (h : r.readRecords n = .ok (xs, r')) : xs.length = n := by
  induction n generalizing r xs r' with
  | zero =>
    cases h
    rfl
  | succ n ih =>
    obtain ⟨x, r₁, others, -, hxs, rfl⟩ := (readRecords_succ_ok_iff _ _ _ _).1 h
    rw [List.length_cons, ih hxs]

/-- Reading one question is reading it. -/
theorem readQuestions_one (r : Reader) :
    r.readQuestions 1 = r.readQuestion.map fun found => ([found.1], found.2) := by
  simp only [readQuestions, bind, Except.bind, pure, Except.pure]
  cases r.readQuestion with
  | error e => rfl
  | ok found => rfl

end Reader

namespace Response

/-- A message has a question to compare iff it has exactly one. -/
theorem single?_eq_some_iff (qs : List Question) (q : Question) : single? qs = some q ↔ qs = [q] := by
  unfold single?
  split
  · simp
  · rename_i hne
    simp only [reduceCtorEq, false_iff]
    exact hne q

/-- A response is read iff the octets hold a header that marks one, and as many questions and answers as it announces. -/
theorem parse?_ok_iff (octets : Octets) (source : Endpoint) (response : Response) :
    parse? octets source = .ok response ↔ ∃ m qs r xs r', Message.ofOctets? octets = some m ∧ m.isResponse = true ∧
      (Reader.ofMessage m).readQuestions m.questionCount.toNat = .ok (qs, r) ∧
      r.readRecords m.answerCount.toNat = .ok (xs, r') ∧
      response = ⟨m.id, m.rcode, m.truncated, single? qs, xs, source⟩ := by
  unfold parse?
  cases hm : Message.ofOctets? octets with
  | none => simp
  | some m =>
    cases hresponse : m.isResponse with
    | false => simp [hresponse]
    | true =>
      cases hqs : (Reader.ofMessage m).readQuestions m.questionCount.toNat with
      | error e => simp [bind, Except.bind, Except.mapError, hresponse, hqs]
      | ok found =>
        obtain ⟨qs, r⟩ := found
        cases hxs : r.readRecords m.answerCount.toNat with
        | error e => simp [bind, Except.bind, Except.mapError, hresponse, hqs, hxs]
        | ok found =>
          obtain ⟨xs, r'⟩ := found
          simp only [bind, Except.bind, pure, Except.pure, Except.mapError, hqs, hxs, hresponse, if_true, Except.ok.injEq]
          constructor
          · rintro rfl
            exact ⟨m, qs, r, xs, r', rfl, hresponse, hqs, hxs, rfl⟩
          · rintro ⟨_, qs', s, xs', s', ⟨rfl⟩, -, hqs', hxs', rfl⟩
            rw [hqs] at hqs'
            cases hqs'
            rw [hxs] at hxs'
            cases hxs'
            rfl

/-- A message is a response that repeats a question iff it is a response with one question, which is this one, and its
answers can be read. -/
theorem parse?_echoes_iff (octets : Octets) (source : Endpoint) (q : Question) :
    (∃ response, parse? octets source = .ok response ∧ response.question = some q) ↔
      ∃ m, Message.ofOctets? octets = some m ∧ m.isResponse = true ∧ m.questionCount = 1 ∧
        ∃ r, (Reader.ofMessage m).readQuestion = .ok (q, r) ∧
          ∃ xs r', r.readRecords m.answerCount.toNat = .ok (xs, r') := by
  simp only [parse?_ok_iff]
  constructor
  · rintro ⟨response, ⟨m, qs, r, xs, r', hm, hresponse, hqs, hxs, rfl⟩, hq⟩
    have hone : qs = [q] := (single?_eq_some_iff qs q).1 hq
    have hcount : m.questionCount.toNat = 1 := by
      rw [← Reader.length_readQuestions hqs, hone]
      rfl
    rw [hcount, Reader.readQuestions_one] at hqs
    cases hread : (Reader.ofMessage m).readQuestion with
    | error e =>
      rw [hread] at hqs
      cases hqs
    | ok found =>
      rw [hread] at hqs
      cases hqs
      cases hone
      exact ⟨m, hm, hresponse, UInt16.toNat_inj.1 hcount, found.2, hread, xs, r', hxs⟩
  · rintro ⟨m, hm, hresponse, hcount, r, hread, xs, r', hxs⟩
    have hqs : (Reader.ofMessage m).readQuestions m.questionCount.toNat = .ok ([q], r) := by
      rw [hcount]
      exact (Reader.readQuestions_one _).trans (by rw [hread]; rfl)
    exact ⟨_, ⟨m, [q], r, xs, r', hm, hresponse, hqs, hxs, rfl⟩, rfl⟩

end Response

end DnsRelay
