import DnsRelay.Listener.Basic
import DnsRelay.Proofs.Message.Writing

/-!
# Which messages are forwarded

A message is forwarded iff it is a query with one readable question; and every question that has a valid name is the question of
some message that is forwarded, under any id.
-/

namespace DnsRelay.Listener

/-- A message is forwarded iff it is a query that announces one question, and this question can be read. -/
theorem triage_eq_forward_iff (octets : Octets) (client : Endpoint) (m : Message) (q : Question) :
    triage octets client = .forward m q ↔ Message.ofOctets? octets = some m ∧ m.isResponse = false ∧ m.opcode = .query ∧
      m.questionCount = 1 ∧ ∃ r, (Reader.ofMessage m).readQuestion = .ok (q, r) := by
  unfold triage
  constructor
  · intro h
    split at h
    · cases h
    · rename_i m' hm
      split at h
      · cases h
      · rename_i hresponse
        split at h
        · cases h
        · rename_i hopcode
          split at h
          · cases h
          · rename_i hcount
            split at h
            · rename_i q' r hq
              cases h
              exact ⟨hm, by simpa using hresponse, by simpa using hopcode, by simpa using hcount, r, hq⟩
            · cases h
  · rintro ⟨hm, hresponse, hopcode, hcount, r, hq⟩
    simp [hm, hresponse, hopcode, hcount, hq]

/-- Every valid question is asked, with its name written out, by a message with a given id that is forwarded. -/
theorem exists_forwarded (id : UInt16) {q : Question} (hq : q.qname.Valid) (client : Endpoint) :
    ∃ m : Message, triage m.octets client = .forward m q ∧ m.id = id ∧ m.Asking q := by
  have hsize : (Array.replicate 512 (0 : UInt8)).size = 512 := Array.size_replicate
  obtain ⟨w, -, hblank, hlimit, hzero⟩ := Writer.exists_make hsize (by decide)
  have hlimit' : (w.setId id).limit = 512 := hlimit
  obtain ⟨w', m, -, -, hasking, hfront⟩ :=
    (hblank.setId id).addQuestion hq (by rw [hlimit']; exact Question.length_pieces_le hq)
  have hlen : (Octets.ofU16 id).length = 2 := Octets.length_ofU16 id
  have hroom : 0 + (Octets.ofU16 id).length ≤ w.buffer.size := by
    rw [hblank.size]
    omega
  have hid : ∀ k < 2, m.octets[0 + k]? = (Octets.ofU16 id)[k]? := by
    intro k hk
    rw [hfront _ (by omega), Writer.setId, Writer.setU16]
    exact Octets.getElem?_overwrite_of_lt w.buffer hroom (by omega)
  have hflags : m.octets[2]? = some 0 := by
    rw [hfront 2 (by decide), Writer.setId, Writer.setU16, ← hzero 2 (by decide)]
    exact Octets.getElem?_overwrite_of_not w.buffer (Or.inr (by omega))
  refine ⟨m, (triage_eq_forward_iff _ _ _ _).2 ⟨(Message.ofOctets?_eq_some_iff _ _).2 rfl, ?_, ?_, hasking.questionCount,
    hasking.reads⟩, ?_, hasking⟩
  · rw [Message.isResponse, m.headerOctet_of_getElem? (i := 2) hflags]
    rfl
  · rw [Message.opcode, m.headerOctet_of_getElem? (i := 2) hflags]
    rfl
  · rw [Message.id, m.headerOctet_of_getElem? (i := 0) (hid 0 Nat.two_pos),
      m.headerOctet_of_getElem? (i := 1) (hid 1 Nat.one_lt_two)]
    exact Octets.u16_ofU16 id

end DnsRelay.Listener
