import DnsRelay.Message.Writer
import DnsRelay.Proofs.Message.Reading

/-!
# What a writer leaves in its buffer

Pieces that fit are written one behind another, and change no octet in front of them. A question added to a writer that has
written nothing yet (`Writer.Blank`) makes a message that asks this question and no other (`Asking`).
-/

namespace DnsRelay

namespace Octets

/-- Writing two runs of octets one behind another is writing them at once. -/
theorem overwrite_append (octets : Octets) (start : Nat) (a b : List UInt8) :
    octets.overwrite start (a ++ b) = (octets.overwrite start a).overwrite (start + a.length) b := by
  induction a generalizing octets start with
  | nil => rfl
  | cons x xs ih =>
    rw [List.cons_append, overwrite, ih, overwrite, List.length_cons]
    congr 1
    omega

/-- Octets that stand in a message as a number is written are read as this number. -/
theorem u16At?_of_slice? {octets : Octets} {start : Nat} {n : UInt16}
    (h : octets.slice? start (ofU16 n).length = some (ofU16 n)) : octets.u16At? start = some n := by
  have hget := (slice?_eq_some_iff_getElem? octets start (List.cons_ne_nil _ _)).1 h
  have h0 : octets[start]? = some (UInt8.ofNat (n.toNat / 256)) := hget 0 Nat.two_pos
  have h1 : octets[start + 1]? = some (UInt8.ofNat (n.toNat % 256)) := hget 1 Nat.one_lt_two
  simp only [u16At?, h0, h1, u16_ofU16]

/-- Octets that stand in a message as a wide number is written are read as this number. -/
theorem u32At?_of_slice? {octets : Octets} {start : Nat} {n : UInt32}
    (h : octets.slice? start (ofU32 n).length = some (ofU32 n)) : octets.u32At? start = some n := by
  have hget : ∀ k < 4, octets[start + k]? = (ofU32 n)[k]? :=
    (slice?_eq_some_iff_getElem? octets start (List.cons_ne_nil _ _)).1 h
  have h0 : octets[start]? = some (UInt8.ofNat (n.toNat / 16777216)) := hget 0 (by decide)
  have h1 : octets[start + 1]? = some (UInt8.ofNat (n.toNat / 65536 % 256)) := hget 1 (by decide)
  have h2 : octets[start + 2]? = some (UInt8.ofNat (n.toNat / 256 % 256)) := hget 2 (by decide)
  have h3 : octets[start + 3]? = some (UInt8.ofNat (n.toNat % 256)) := hget 3 (by decide)
  simp only [u32At?, h0, h1, h2, h3, u32_ofU32]

end Octets

/-- Behind a header there is room for the wire form of a valid question in 512 octets. -/
theorem Question.length_pieces_le {q : Question} (hq : q.qname.Valid) :
    headerSize + q.pieces.flatten.length ≤ 512 := by
  obtain ⟨-, -, -, hlen⟩ := hq
  simp only [Name.maxWireLength] at hlen
  simp only [pieces, List.flatten_cons, List.flatten_nil, List.length_append, Octets.length_ofU16, List.length_nil,
    headerSize]
  omega

/-- A message that asks one question, with its name written out, and has no answers. -/
structure Message.Asking (m : Message) (q : Question) : Prop where
  questionCount : m.questionCount = 1
  answerCount : m.answerCount = 0
  reads : ∃ r, (Reader.ofMessage m).readQuestion = .ok (q, r)
  plain : ∃ labels stop, Name.Spelled m.octets headerSize headerSize [] labels stop ∧
    q.qname.wire = Name.encodeLabels labels

/-- A name that stands in a message as it is written is read, and is spelled there without a pointer. -/
theorem Reader.nameAt?_of_slice? (m : Message) {name : Name} (hname : name.Valid) {c : Nat}
    (h : m.octets.slice? c name.wire.length = some name.wire) :
    nameAt? m c = .ok (name, c + name.wire.length) ∧
      ∃ labels, Name.Spelled m.octets c c [] labels (c + name.wire.length) ∧ name.wire = Name.encodeLabels labels := by
  obtain ⟨labels, hv, hw, hlen⟩ := hname
  have hs : Name.Spelled m.octets c c [] labels (c + name.wire.length) :=
    (Name.spelled_nil_iff _ _ _ _ _).2 ⟨hv, by rw [hw], by rw [← hw]; exact h⟩
  exact ⟨(nameAt?_ok_iff _ _ _ _).2 ((Name.readFrom_ok_iff _ _ _ _ _ _).2 ⟨[], labels, hs, hw, hlen⟩), labels, hs, hw⟩

/-- A question that stands in a message as it is written is read, and its name stands there without a pointer. -/
theorem Reader.readQuestion_of_slice? (m : Message) {q : Question} (hq : q.qname.Valid) {c : Nat}
    (h : m.octets.slice? c q.pieces.flatten.length = some q.pieces.flatten) :
    (Reader.mk m c).readQuestion = .ok (q, ⟨m, c + q.pieces.flatten.length⟩) ∧
      ∃ labels stop, Name.Spelled m.octets c c [] labels stop ∧ q.qname.wire = Name.encodeLabels labels := by
  have hpieces : q.pieces.flatten = q.qname.wire ++ (Octets.ofU16 q.qtype.code ++ Octets.ofU16 q.qclass.code) := by
    simp [Question.pieces]
  have hstop : c + q.pieces.flatten.length = c + q.qname.wire.length + 4 := by
    rw [hpieces, List.length_append, List.length_append, Octets.length_ofU16, Octets.length_ofU16, Nat.add_assoc]
  rw [hpieces] at h
  obtain ⟨hname, h⟩ := (Octets.slice?_append _ _ _ _).1 h
  obtain ⟨htype, hclass⟩ := (Octets.slice?_append _ _ _ _).1 h
  obtain ⟨hread, labels, hs, hw⟩ := nameAt?_of_slice? m hq hname
  refine ⟨(readQuestion_ok_iff _ _ _ _).2 ⟨c + q.qname.wire.length, hread, ?_, ?_, by rw [hstop]⟩, labels, _, hs, hw⟩
  · exact Octets.u16At?_of_slice? htype
  · exact Octets.u16At?_of_slice? hclass

namespace Writer

/-- Pieces that fit are all written, one behind another. -/
theorem putAll_of_le (w : Writer) (pieces : List (List UInt8)) (h : w.cursor + pieces.flatten.length ≤ w.limit) :
    w.putAll pieces = (true, { w with
      buffer := w.buffer.overwrite w.cursor pieces.flatten
      cursor := w.cursor + pieces.flatten.length }) := by
  induction pieces generalizing w with
  | nil => rfl
  | cons piece pieces ih =>
    rw [List.flatten_cons, List.length_append] at h
    rw [putAll, if_pos (by omega), ih _ (by dsimp only; omega)]
    simp only [List.flatten_cons, Octets.overwrite_append, List.length_append, Nat.add_assoc]

/-- The first question is added if it fits. -/
theorem addQuestion_of_le (w : Writer) (q : Question) (hpart : w.part = .questions) (hcount : w.questionCount = 0)
    (h : w.cursor + q.pieces.flatten.length ≤ w.limit) :
    w.addQuestion q = (.ok (), { w with
      firstName := some q.qname
      questionCount := 1
      buffer := (w.buffer.overwrite w.cursor q.pieces.flatten).overwrite 4 (Octets.ofU16 1)
      cursor := w.cursor + q.pieces.flatten.length }) := by
  rw [addQuestion, if_neg (by simp [hpart]), if_neg (by rw [hcount]; decide), put, putAll_of_le w q.pieces h]
  simp [hcount, setU16]

/-! ## Writers that have written nothing behind the flags -/

/-- The writer has a buffer of the size of its limit, stands behind the header, and has set nothing there but the id and the
flags. -/
structure Blank (w : Writer) : Prop where
  part : w.part = .questions
  questionCount : w.questionCount = 0
  cursor : w.cursor = headerSize
  size : w.buffer.size = w.limit
  room : headerSize ≤ w.limit
  zero : ∀ k, 4 ≤ k → k < headerSize → w.buffer[k]? = some 0

/-- A writer is made over a buffer that holds a header. -/
theorem make_of_le {buffer : Octets} {limit : Nat} (hsize : buffer.size = limit) (h : headerSize ≤ limit) :
    make buffer limit = .ok ⟨buffer.overwrite 0 (List.replicate headerSize 0), headerSize, limit, .questions, 0, 0, none⟩ := by
  rw [make, hsize, Nat.min_self]
  exact if_neg (Nat.not_lt.2 h)

/-- The octets of a cleared header are zero. -/
theorem getElem?_cleared {buffer : Octets} (h : headerSize ≤ buffer.size) {k : Nat} (hk : k < headerSize) :
    (buffer.overwrite 0 (List.replicate headerSize 0))[k]? = some 0 := by
  have hlen : (List.replicate headerSize (0 : UInt8)).length = headerSize := List.length_replicate
  have hget : (buffer.overwrite 0 (List.replicate headerSize 0))[0 + k]? = (List.replicate headerSize 0)[k]? :=
    Octets.getElem?_overwrite_of_lt buffer (by omega) (hlen ▸ hk)
  rw [Nat.zero_add] at hget
  rw [hget, List.getElem?_replicate, if_pos hk]

/-- A writer that was just made is blank, and all octets of its header are zero. -/
theorem exists_make {buffer : Octets} {limit : Nat} (hsize : buffer.size = limit) (h : headerSize ≤ limit) :
    ∃ w, make buffer limit = .ok w ∧ w.Blank ∧ w.limit = limit ∧ ∀ k < headerSize, w.buffer[k]? = some 0 := by
  have hzero : ∀ k < headerSize, (buffer.overwrite 0 (List.replicate headerSize 0))[k]? = some 0 :=
    fun k hk => getElem?_cleared (hsize ▸ h) hk
  have hcleared : (buffer.overwrite 0 (List.replicate headerSize 0)).size = limit := by
    rw [Octets.size_overwrite, hsize]
  have hmake := make_of_le hsize h
  generalize buffer.overwrite 0 (List.replicate headerSize 0) = cleared at hzero hcleared hmake
  exact ⟨_, hmake, ⟨rfl, rfl, rfl, hcleared, h, fun k _ hk => hzero k hk⟩, rfl, hzero⟩

namespace Blank

variable {w : Writer}

/-- Setting the id keeps a writer blank. -/
theorem setId (h : w.Blank) (id : UInt16) : (w.setId id).Blank where
  part := h.part
  questionCount := h.questionCount
  cursor := h.cursor
  size := (Octets.size_overwrite _ _ _).trans h.size
  room := h.room
  zero := by
    intro k hk hk'
    rw [Writer.setId, setU16, Octets.getElem?_overwrite_of_not _ (Or.inr (by rw [Octets.length_ofU16]; omega))]
    exact h.zero k hk hk'

/-- Setting flags keeps a writer blank. -/
theorem setBits (h : w.Blank) {index : Nat} (hindex : index < 4) (mask bits : UInt8) : (w.setBits index mask bits).Blank where
  part := h.part
  questionCount := h.questionCount
  cursor := h.cursor
  size := (Array.size_modify ..).trans h.size
  room := h.room
  zero := by
    intro k hk hk'
    rw [Writer.setBits, Array.getElem?_modify, if_neg (by omega)]
    exact h.zero k hk hk'

/-- What a blank writer has written is a message of a header only, whose counts are zero. -/
theorem message (h : w.Blank) :
    ∃ m : Message, w.octets = m.octets ∧ m.octets.size = headerSize ∧ m.questionCount = 0 ∧ m.answerCount = 0 ∧
      m.authorityCount = 0 ∧ m.additionalCount = 0 ∧ ∀ k < headerSize, m.octets[k]? = w.buffer[k]? := by
  have hle : headerSize ≤ w.buffer.size := by
    rw [h.size]
    exact h.room
  have hsize : w.octets.size = headerSize := by
    rw [Writer.octets, h.cursor, Array.size_extract, Nat.min_eq_left hle, Nat.sub_zero]
  have hget : ∀ k < headerSize, w.octets[k]? = w.buffer[k]? := by
    intro k hk
    rw [Writer.octets, h.cursor, Array.getElem?_extract, Nat.min_eq_left hle, Nat.sub_zero, if_pos hk, Nat.zero_add]
  let m : Message := ⟨w.octets, Nat.le_of_eq hsize.symm⟩
  have hzero : ∀ i : Fin 12, 4 ≤ i.val → m.headerOctet i = 0 := fun i hi =>
    m.headerOctet_of_getElem? ((hget i.val i.isLt).trans (h.zero i.val hi i.isLt))
  refine ⟨m, rfl, hsize, ?_, ?_, ?_, ?_, hget⟩
  · rw [Message.questionCount, hzero 4 (by decide), hzero 5 (by decide)]
    rfl
  · rw [Message.answerCount, hzero 6 (by decide), hzero 7 (by decide)]
    rfl
  · rw [Message.authorityCount, hzero 8 (by decide), hzero 9 (by decide)]
    rfl
  · rw [Message.additionalCount, hzero 10 (by decide), hzero 11 (by decide)]
    rfl

/-- A question that fits behind the header of a blank writer is written there and counted in the header, and nothing else is. -/
theorem addQuestion_octets (h : w.Blank) (q : Question) (hfit : headerSize + q.pieces.flatten.length ≤ w.limit) :
    ∃ w' : Writer, w.addQuestion q = (.ok (), w') ∧ w'.octets.size = headerSize + q.pieces.flatten.length ∧
      (∀ k < headerSize, k < 4 ∨ 6 ≤ k → w'.octets[k]? = w.buffer[k]?) ∧
      (∀ k < 2, w'.octets[4 + k]? = (Octets.ofU16 1)[k]?) ∧
      w'.octets.slice? headerSize q.pieces.flatten.length = some q.pieces.flatten := by
  rw [addQuestion_of_le w q h.part h.questionCount (by rw [h.cursor]; exact hfit), h.cursor]
  generalize hb : (w.buffer.overwrite headerSize q.pieces.flatten).overwrite 4 (Octets.ofU16 1) = buffer
  generalize hstop : headerSize + q.pieces.flatten.length = stop at hfit
  have hhead : headerSize = 12 := rfl
  have hlen : (Octets.ofU16 1).length = 2 := Octets.length_ofU16 1
  have hfront : w.buffer.size = w.limit := h.size
  have hmid : (w.buffer.overwrite headerSize q.pieces.flatten).size = w.limit := (Octets.size_overwrite _ _ _).trans hfront
  have hsize : buffer.size = w.limit := by rw [← hb, Octets.size_overwrite, hmid]
  have hget : ∀ k < stop, (buffer.extract 0 stop)[k]? = buffer[k]? := by
    intro k hk
    rw [Array.getElem?_extract, if_pos (by omega), Nat.zero_add]
  have hquestion : ∀ k < q.pieces.flatten.length, (buffer.extract 0 stop)[headerSize + k]? = q.pieces.flatten[k]? := by
    intro k hk
    rw [hget _ (by omega), ← hb, Octets.getElem?_overwrite_of_not _ (by omega),
      Octets.getElem?_overwrite_of_lt _ (by omega) hk]
  have hne : q.pieces.flatten ≠ [] := by simp [Question.pieces, Octets.ofU16]
  refine ⟨_, rfl, ?_, ?_, ?_, (Octets.slice?_eq_some_iff_getElem? _ _ hne).2 hquestion⟩
  · show (buffer.extract 0 stop).size = stop
    rw [Array.size_extract]
    omega
  · intro k hk hk'
    show (buffer.extract 0 stop)[k]? = _
    rw [hget k (by omega), ← hb, Octets.getElem?_overwrite_of_not _ (by omega),
      Octets.getElem?_overwrite_of_not _ (Or.inl hk)]
  · intro k hk
    show (buffer.extract 0 stop)[4 + k]? = _
    rw [hget _ (by omega), ← hb, Octets.getElem?_overwrite_of_lt _ (by omega) (by omega)]

/-- A question that fits behind the header of a blank writer is added, and makes a message that asks it and ends behind it. All
counts but that of questions are zero, and the octets of the id and of the flags stay. -/
theorem addQuestion_message (h : w.Blank) {q : Question} (hq : q.qname.Valid)
    (hfit : headerSize + q.pieces.flatten.length ≤ w.limit) :
    ∃ (w' : Writer) (m : Message), w.addQuestion q = (.ok (), w') ∧ w'.octets = m.octets ∧
      m.octets.size = headerSize + q.pieces.flatten.length ∧
      (Reader.ofMessage m).readQuestion = .ok (q, ⟨m, headerSize + q.pieces.flatten.length⟩) ∧ m.Asking q ∧
      m.authorityCount = 0 ∧ m.additionalCount = 0 ∧ ∀ k < 4, m.octets[k]? = w.buffer[k]? := by
  obtain ⟨w', hadd, hsize, hkept, hcount, hslice⟩ := h.addQuestion_octets q hfit
  have hhead : headerSize = 12 := rfl
  let m : Message := ⟨w'.octets, by omega⟩
  obtain ⟨hreads, hplain⟩ := Reader.readQuestion_of_slice? m hq hslice
  have hzero : ∀ i : Fin 12, 6 ≤ i.val → m.headerOctet i = 0 := fun i hi =>
    m.headerOctet_of_getElem? ((hkept i.val i.isLt (Or.inr hi)).trans (h.zero i.val (by omega) i.isLt))
  refine ⟨w', m, hadd, rfl, hsize, hreads, ⟨?_, ?_, ⟨_, hreads⟩, hplain⟩, ?_, ?_,
    fun k hk => hkept k (by omega) (Or.inl hk)⟩
  · have h4 := hcount 0 Nat.two_pos
    have h5 := hcount 1 Nat.one_lt_two
    rw [Message.questionCount, m.headerOctet_of_getElem? (i := 4) h4, m.headerOctet_of_getElem? (i := 5) h5]
    rfl
  · rw [Message.answerCount, hzero 6 (by decide), hzero 7 (by decide)]
    rfl
  · rw [Message.authorityCount, hzero 8 (by decide), hzero 9 (by decide)]
    rfl
  · rw [Message.additionalCount, hzero 10 (by decide), hzero 11 (by decide)]
    rfl

/-- A question that fits behind the header of a blank writer is added, and makes a message that asks it. The octets of the
id and of the flags stay. -/
theorem addQuestion (h : w.Blank) {q : Question} (hq : q.qname.Valid)
    (hfit : headerSize + q.pieces.flatten.length ≤ w.limit) :
    ∃ (w' : Writer) (m : Message), w.addQuestion q = (.ok (), w') ∧ w'.octets = m.octets ∧ m.Asking q ∧
      ∀ k < 4, m.octets[k]? = w.buffer[k]? := by
  obtain ⟨w', m, hadd, hoctets, -, -, hasking, -, -, hfront⟩ := h.addQuestion_message hq hfit
  exact ⟨w', m, hadd, hoctets, hasking, hfront⟩

end Blank

end Writer

end DnsRelay
