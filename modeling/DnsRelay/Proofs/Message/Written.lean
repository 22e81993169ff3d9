import DnsRelay.Proofs.Message.Draft
import DnsRelay.Proofs.Transcript

/-!
# Writers and what they have written

The calls of a writer and their answers make up a draft (`Draft.ofCalls`): what was set last, and what was added, in order. A
writer that has answered them has the octets of this draft in front of its cursor (`Writer.Written`), through calls that fail
as well, so that reading them gives the draft back (`Writer.read_written`).
-/

namespace DnsRelay

namespace Writer

/-- What a writer is asked for: a field of the header, a question or an answer. -/
inductive Call where
  | setId (id : UInt16)
  | setResponse (value : Bool)
  | setOpcode (opcode : Opcode)
  | setTruncated (value : Bool)
  | setRecursionDesired (value : Bool)
  | setRecursionAvailable (value : Bool)
  | setRcode (rcode : Rcode)
  | addQuestion (q : Question)
  | addAnswer (x : Record)
  deriving DecidableEq, Repr

/-- The names in a call are valid. -/
def Call.Valid : Call → Prop
  | .addQuestion q => q.qname.Valid
  | .addAnswer x => x.owner.Valid
  | _ => True

/-- A writer answers a call. Setting a field never fails. -/
def answer (w : Writer) : Call → Except WriteError Unit × Writer
  | .setId id => (.ok (), w.setId id)
  | .setResponse value => (.ok (), w.setResponse value)
  | .setOpcode opcode => (.ok (), w.setOpcode opcode)
  | .setTruncated value => (.ok (), w.setTruncated value)
  | .setRecursionDesired value => (.ok (), w.setRecursionDesired value)
  | .setRecursionAvailable value => (.ok (), w.setRecursionAvailable value)
  | .setRcode rcode => (.ok (), w.setRcode rcode)
  | .addQuestion q => w.addQuestion q
  | .addAnswer x => w.addAnswer x.owner x.type x.cls x.ttl x.data

end Writer

namespace Draft

/-- The draft behind a call that succeeds. -/
def after (d : Draft) : Writer.Call → Draft
  | .setId id => { d with id }
  | .setResponse isResponse => { d with isResponse }
  | .setOpcode opcode => { d with opcode }
  | .setTruncated truncated => { d with truncated }
  | .setRecursionDesired recursionDesired => { d with recursionDesired }
  | .setRecursionAvailable recursionAvailable => { d with recursionAvailable }
  | .setRcode rcode => { d with rcode }
  | .addQuestion q => { d with questions := d.questions ++ [q] }
  | .addAnswer x => { d with records := d.records ++ [x] }

/-- The draft behind a call and its answer: a call that fails changes nothing. -/
def behind (d : Draft) (call : Writer.Call × Except WriteError Unit) : Draft :=
  match call.2 with
  | .ok () => d.after call.1
  | .error _ => d

/-- The draft that calls and their answers make up. -/
def ofCalls (calls : List (Writer.Call × Except WriteError Unit)) : Draft :=
  calls.foldl behind blank

/-- The names in a draft are valid. -/
structure Named (d : Draft) : Prop where
  questions : ∀ q ∈ d.questions, q.qname.Valid
  records : ∀ x ∈ d.records, x.owner.Valid

/-- A call with valid names leaves valid names. -/
theorem Named.behind {d : Draft} (h : d.Named) {call : Writer.Call} (hcall : call.Valid) (result : Except WriteError Unit) :
    (d.behind (call, result)).Named := by
  cases result with
  | error e => exact h
  | ok _ =>
    cases call with
    | addQuestion q => exact ⟨List.forall_mem_append.2 ⟨h.questions, List.forall_mem_singleton.2 hcall⟩, h.records⟩
    | addAnswer x => exact ⟨h.questions, List.forall_mem_append.2 ⟨h.records, List.forall_mem_singleton.2 hcall⟩⟩
    | _ => exact ⟨h.questions, h.records⟩

/-- Calls with valid names make up a draft with valid names. -/
theorem named_ofCalls {calls : List Writer.Call} (hcalls : ∀ call ∈ calls, call.Valid)
    (results : List (Except WriteError Unit)) : (ofCalls (calls.zip results)).Named := by
  suffices ∀ d : Draft, d.Named → ((calls.zip results).foldl Draft.behind d).Named from
    this blank ⟨List.forall_mem_nil _, List.forall_mem_nil _⟩
  induction calls generalizing results with
  | nil =>
    intro d hd
    exact hd
  | cons call calls ih =>
    obtain ⟨hcall, hcalls⟩ := List.forall_mem_cons.1 hcalls
    cases results with
    | nil =>
      intro d hd
      exact hd
    | cons result results =>
      intro d hd
      exact ih hcalls results _ (hd.behind hcall result)

/-! ## Single bits of the header -/

/-- Setting a part of the flags leaves the other parts. -/
theorem flags_set (isResponse truncated recursionDesired value : Bool) : ∀ opcode : UInt8, opcode.toNat < 16 →
    let old := flags isResponse opcode truncated recursionDesired
    (old &&& ~~~Header.responseBit) ||| bit Header.responseBit value = flags value opcode truncated recursionDesired ∧
      (old &&& ~~~Header.truncationBit) ||| bit Header.truncationBit value =
        flags isResponse opcode value recursionDesired ∧
      (old &&& ~~~Header.recursionDesiredBit) ||| bit Header.recursionDesiredBit value =
        flags isResponse opcode truncated value := by
  refine Octet.forall_lt_of_lt ?_
  revert isResponse truncated recursionDesired value
  decide +kernel

/-- Setting the opcode leaves the flags around it. -/
theorem flags_setOpcode (isResponse truncated recursionDesired : Bool) : ∀ opcode : UInt8, opcode.toNat < 16 →
    ∀ opcode' : UInt8, opcode'.toNat < 16 →
    (flags isResponse opcode truncated recursionDesired &&& ~~~Header.opcodeBits) ||| opcode' <<< 3 =
      flags isResponse opcode' truncated recursionDesired := by
  refine Octet.forall_lt_of_lt fun opcode hopcode => Octet.forall_lt_of_lt ?_
  revert isResponse truncated recursionDesired opcode
  decide +kernel

/-- Setting a part of the codes leaves the other part. -/
theorem codes_set (recursionAvailable value : Bool) : ∀ rcode : UInt8, rcode.toNat < 16 → ∀ rcode' : UInt8,
    rcode'.toNat < 16 →
    let old := codes recursionAvailable rcode
    (old &&& ~~~Header.recursionAvailableBit) ||| bit Header.recursionAvailableBit value = codes value rcode ∧
      (old &&& ~~~Header.rcodeBits) ||| (rcode' &&& Header.rcodeBits) = codes recursionAvailable rcode' := by
  refine Octet.forall_lt_of_lt fun rcode hrcode => Octet.forall_lt_of_lt ?_
  revert recursionAvailable value rcode
  decide +kernel

/-! ## Adding to a draft -/

/-- A question is added behind the questions, and counted in the header. -/
theorem octets_addQuestion {d : Draft} (hrecords : d.records = []) (q : Question) :
    (d.after (.addQuestion q)).octets = d.header.take 4 ++ Octets.ofU16 (UInt16.ofNat (d.questions.length + 1)) ++
      (d.header.drop 6 ++ (d.body ++ q.pieces.flatten)) := by
  have hheader : (d.after (.addQuestion q)).header =
      d.header.take 4 ++ Octets.ofU16 (UInt16.ofNat (d.questions ++ [q]).length) ++ d.header.drop 6 := rfl
  have hbody : (d.after (.addQuestion q)).body = d.body ++ q.pieces.flatten := by
    simp [body, after, hrecords]
  rw [octets, hheader, hbody, List.length_append, List.append_assoc]
  rfl

/-- An answer is added behind everything else, and counted in the header. -/
theorem octets_addAnswer (d : Draft) (x : Record) :
    (d.after (.addAnswer x)).octets = d.header.take 6 ++ Octets.ofU16 (UInt16.ofNat (d.records.length + 1)) ++
      (d.header.drop 8 ++ (d.body ++ recordOctets d.firstName x)) := by
  have hheader : (d.after (.addAnswer x)).header =
      d.header.take 6 ++ Octets.ofU16 (UInt16.ofNat (d.records ++ [x]).length) ++ d.header.drop 8 := rfl
  have hbody : (d.after (.addAnswer x)).body = d.body ++ recordOctets d.firstName x := by
    simp [body, after, firstName]
  rw [octets, hheader, hbody, List.length_append, List.append_assoc]
  rfl

end Draft

namespace Writer

/-! ## The parts of a buffer -/

/-- The buffer of a writer: what is written, what is free behind it up to the limit, and what lies beyond. -/
structure Holds (w : Writer) (written free beyond : List UInt8) : Prop where
  buffer : w.buffer.toList = written ++ free ++ beyond
  cursor : w.cursor = written.length
  limit : w.limit = written.length + free.length

namespace Holds

variable {w : Writer} {written free beyond : List UInt8}

/-- Octets that are free are written. -/
theorem overwrite (h : w.Holds written free beyond) {new : List UInt8} (hfit : w.cursor + new.length ≤ w.limit) :
    { w with buffer := w.buffer.overwrite w.cursor new, cursor := w.cursor + new.length }.Holds (written ++ new)
      (free.drop new.length) beyond := by
  have hle : new.length ≤ free.length := by
    have hcursor := h.cursor
    have hlimit := h.limit
    omega
  have hbuffer : w.buffer.toList = written ++ free.take new.length ++ (free.drop new.length ++ beyond) := by
    rw [h.buffer, List.append_assoc, List.append_assoc, ← List.append_assoc (free.take _), List.take_append_drop]
  refine ⟨?_, ?_, ?_⟩
  · dsimp only
    rw [h.cursor, Octets.toList_overwrite hbuffer (by rw [List.length_take, Nat.min_eq_left hle]), List.append_assoc _ _ beyond]
  · dsimp only
    rw [h.cursor, List.length_append]
  · dsimp only
    rw [h.limit, List.length_append, List.length_drop]
    omega

/-- A number is written over two octets in front of the cursor. -/
theorem setU16 {a b c : List UInt8} (h : w.Holds (a ++ b ++ c) free beyond) (hlen : b.length = 2) (n : UInt16) :
    (w.setU16 a.length n).Holds (a ++ Octets.ofU16 n ++ c) free beyond := by
  have hsame : (a ++ Octets.ofU16 n ++ c).length = (a ++ b ++ c).length := by
    simp only [List.length_append, Octets.length_ofU16, hlen]
  refine ⟨?_, h.cursor.trans hsame.symm, hsame ▸ h.limit⟩
  have hbuffer : w.buffer.toList = a ++ b ++ (c ++ free ++ beyond) := by
    rw [h.buffer]
    simp only [List.append_assoc]
  rw [Writer.setU16, Octets.toList_overwrite hbuffer (by rw [Octets.length_ofU16, hlen])]
  simp only [List.append_assoc]

/-- Bits of an octet in front of the cursor are replaced. -/
theorem setBits {a c : List UInt8} {b : UInt8} (h : w.Holds (a ++ b :: c) free beyond) {mask bits b' : UInt8}
    (hb : (b &&& ~~~mask) ||| bits = b') : (w.setBits a.length mask bits).Holds (a ++ b' :: c) free beyond := by
  have hsame : (a ++ b' :: c).length = (a ++ b :: c).length := by
    simp only [List.length_append, List.length_cons]
  refine ⟨?_, h.cursor.trans hsame.symm, hsame ▸ h.limit⟩
  have hbuffer : w.buffer.toList = a ++ b :: (c ++ free ++ beyond) := by
    rw [h.buffer]
    simp only [List.append_assoc, List.cons_append]
  rw [Writer.setBits, Octets.toList_modify hbuffer, hb]
  simp only [List.append_assoc, List.cons_append]

end Holds

/-- Pieces that do not all fit change free octets only. -/
theorem putAll_of_lt {w : Writer} {written free beyond : List UInt8} (h : w.Holds written free beyond)
    {pieces : List (List UInt8)} (hlt : w.limit < w.cursor + pieces.flatten.length) :
    ∃ buffer cursor free', w.putAll pieces = (false, { w with buffer, cursor }) ∧
      buffer.toList = written ++ free' ++ beyond ∧ free'.length = free.length := by
  induction pieces generalizing w written free with
  | nil =>
    have hcursor := h.cursor
    have hlimit := h.limit
    simp only [List.flatten_nil, List.length_nil] at hlt
    omega
  | cons piece pieces ih =>
    by_cases hfit : w.cursor + piece.length ≤ w.limit
    · have hnext := h.overwrite hfit
      rw [List.flatten_cons, List.length_append, ← Nat.add_assoc] at hlt
      obtain ⟨buffer, cursor, free', hput, hbuffer, hlen⟩ := ih hnext hlt
      refine ⟨buffer, cursor, piece ++ free', ?_, ?_, ?_⟩
      · rw [putAll, if_pos hfit, hput]
      · rw [hbuffer, List.append_assoc written]
      · have hcursor := h.cursor
        have hlimit := h.limit
        rw [List.length_append, hlen, List.length_drop]
        omega
    · exact ⟨w.buffer, w.cursor, free, by rw [putAll, if_neg hfit], h.buffer, rfl⟩

/-- Either all pieces fit and are written, or they do not and free octets change only. -/
theorem put_cases {w : Writer} {written free beyond : List UInt8} (h : w.Holds written free beyond)
    (pieces : List (List UInt8)) :
    (w.cursor + pieces.flatten.length ≤ w.limit ∧ ∃ buffer cursor,
      w.put pieces = (true, { w with buffer, cursor }) ∧
        { w with buffer, cursor }.Holds (written ++ pieces.flatten) (free.drop pieces.flatten.length) beyond) ∨
    (w.limit < w.cursor + pieces.flatten.length ∧ ∃ buffer free',
      w.put pieces = (false, { w with buffer }) ∧ { w with buffer }.Holds written free' beyond) := by
  rcases Nat.lt_or_ge w.limit (w.cursor + pieces.flatten.length) with hlt | hle
  · obtain ⟨buffer, cursor, free', hput, hbuffer, hlen⟩ := putAll_of_lt h hlt
    exact Or.inr ⟨hlt, buffer, free', by rw [put, hput], hbuffer, h.cursor, hlen ▸ h.limit⟩
  · exact Or.inl ⟨hle, _, _, by rw [put, putAll_of_le w pieces hle], h.overwrite hle⟩

/-! ## One call -/

namespace CountAux

variable {count : UInt16} {n : Nat}

/-- A count is the last one iff it counts as many as two octets can. -/
theorem eq_last_iff (h : count.toNat = n) : count = 65535 ↔ ¬n < 65535 := by
  have hlt := count.toNat_lt
  have hlast : (65535 : UInt16).toNat = 65535 := rfl
  rw [← UInt16.toNat_inj, hlast]
  omega

/-- The next count counts one more. -/
theorem next_eq (h : count.toNat = n) : count + 1 = UInt16.ofNat (n + 1) := by
  rw [← h, UInt16.ofNat_add, UInt16.ofNat_toNat]
  rfl

/-- A count that is not the last one has a next one. -/
theorem toNat_next {α : Type} {xs : List α} {x : α} (h : count.toNat = xs.length) (hlt : xs.length < 65535) :
    (count + 1).toNat = (xs ++ [x]).length := by
  rw [next_eq h, UInt16.toNat_ofNat', List.length_append, List.length_singleton]
  omega

end CountAux

/-- A writer that has written a draft: its octets stand in front of the cursor, and what the writer remembers is what the draft
says. -/
structure Written (w : Writer) (d : Draft) (beyond : List UInt8) : Prop where
  part : w.part = if d.records = [] then .questions else .answers
  questionCount : w.questionCount.toNat = d.questions.length
  answerCount : w.answerCount.toNat = d.records.length
  firstName : w.firstName = d.firstName
  data : ∀ x ∈ d.records, x.data.length ≤ maxMessageSize
  holds : ∃ free, w.Holds d.octets free beyond

namespace Written

variable {w : Writer} {d : Draft} {beyond : List UInt8}

/-- A writer has written a draft if nothing but the octets in front of its cursor has changed since it had written another one with
the same questions and answers. -/
theorem of_holds (h : w.Written d beyond) {d' : Draft} {buffer : Octets} {free : List UInt8}
    (hquestions : d'.questions = d.questions) (hrecords : d'.records = d.records)
    (hholds : { w with buffer }.Holds d'.octets free beyond) : { w with buffer }.Written d' beyond where
  part := hrecords ▸ h.part
  questionCount := hquestions ▸ h.questionCount
  answerCount := hrecords ▸ h.answerCount
  firstName := by
    rw [Draft.firstName, hquestions]
    exact h.firstName
  data := hrecords ▸ h.data
  holds := ⟨free, hholds⟩

/-- The cursor stands behind the octets of the draft. -/
theorem cursor_eq (h : w.Written d beyond) : w.cursor = d.octets.length := by
  obtain ⟨free, hholds⟩ := h.holds
  exact hholds.cursor

/-- The first name is that of the first question added. -/
theorem firstName_addQuestion (h : w.Written d beyond) (q : Question) :
    (if w.questionCount = 0 then some q.qname else w.firstName) = (d.after (.addQuestion q)).firstName := by
  have hcount := h.questionCount
  show _ = (d.questions ++ [q]).head?.map (·.qname)
  cases hqs : d.questions with
  | nil =>
    rw [hqs] at hcount
    rw [if_pos (UInt16.toNat_inj.1 hcount)]
    rfl
  | cons first qs =>
    rw [hqs] at hcount
    rw [if_neg (fun he => by rw [he] at hcount; cases hcount), h.firstName, Draft.firstName, hqs]
    rfl

/-- The flags in the header are replaced. -/
theorem setFlags (h : w.Written d beyond) {d' : Draft} {mask bits : UInt8}
    (hbits : (Draft.flags d.isResponse d.opcode.toOctet d.truncated d.recursionDesired &&& ~~~mask) ||| bits =
      Draft.flags d'.isResponse d'.opcode.toOctet d'.truncated d'.recursionDesired)
    (hquestions : d'.questions = d.questions) (hrecords : d'.records = d.records)
    (hoctets : d'.octets = d.octets.take 2 ++
      Draft.flags d'.isResponse d'.opcode.toOctet d'.truncated d'.recursionDesired :: d.octets.drop 3) :
    (w.setBits 2 mask bits).Written d' beyond := by
  obtain ⟨free, hholds⟩ := h.holds
  have hset := Holds.setBits (a := d.octets.take 2) (c := d.octets.drop 3) hholds hbits
  rw [← hoctets] at hset
  exact h.of_holds hquestions hrecords hset

/-- The codes in the header are replaced. -/
theorem setCodes (h : w.Written d beyond) {d' : Draft} {mask bits : UInt8}
    (hbits : (Draft.codes d.recursionAvailable d.rcode.toOctet &&& ~~~mask) ||| bits =
      Draft.codes d'.recursionAvailable d'.rcode.toOctet)
    (hquestions : d'.questions = d.questions) (hrecords : d'.records = d.records)
    (hoctets : d'.octets = d.octets.take 3 ++ Draft.codes d'.recursionAvailable d'.rcode.toOctet :: d.octets.drop 4) :
    (w.setBits 3 mask bits).Written d' beyond := by
  obtain ⟨free, hholds⟩ := h.holds
  have hset := Holds.setBits (a := d.octets.take 3) (c := d.octets.drop 4) hholds hbits
  rw [← hoctets] at hset
  exact h.of_holds hquestions hrecords hset

/-- A question is added iff no answer was, there is a number for it, and it fits. If it is not, the draft stays. -/
theorem addQuestion_cases (h : w.Written d beyond) (q : Question) :
    (d.records = [] ∧ d.questions.length < 65535 ∧ d.octets.length + q.pieces.flatten.length ≤ w.limit ∧
      ∃ w', w.addQuestion q = (.ok (), w') ∧ w'.Written (d.after (.addQuestion q)) beyond) ∨
    (¬(d.records = [] ∧ d.questions.length < 65535 ∧ d.octets.length + q.pieces.flatten.length ≤ w.limit) ∧
      ∃ e w', w.addQuestion q = (.error e, w') ∧ w'.Written d beyond) := by
  by_cases hrecords : d.records = []
  · have hpart : ¬w.part ≠ .questions := by simp [h.part, hrecords]
    by_cases hcount : d.questions.length < 65535
    · have hlast : w.questionCount ≠ 65535 := fun he => (CountAux.eq_last_iff h.questionCount).1 he hcount
      obtain ⟨free, hholds⟩ := h.holds
      rcases put_cases hholds q.pieces with ⟨hfit, buffer, cursor, hput, hnew⟩ | ⟨hlt, buffer, free', hput, hnew⟩
      · refine Or.inl ⟨hrecords, hcount, hholds.cursor ▸ hfit, _, by
          rw [addQuestion, if_neg hpart, if_neg hlast, hput], ?_⟩
        have hcut : d.octets ++ q.pieces.flatten = d.header.take 4 ++ Octets.ofU16 (UInt16.ofNat d.questions.length) ++
            (d.header.drop 6 ++ (d.body ++ q.pieces.flatten)) := by
          rw [Draft.octets, List.append_assoc]
          rfl
        rw [hcut] at hnew
        have hset := hnew.setU16 (Octets.length_ofU16 _) (w.questionCount + 1)
        have hoctets := Draft.octets_addQuestion hrecords q
        rw [← CountAux.next_eq h.questionCount] at hoctets
        rw [← hoctets] at hset
        exact ⟨h.part, CountAux.toNat_next h.questionCount hcount, h.answerCount, h.firstName_addQuestion q, h.data, _,
          hset.buffer, hset.cursor, hset.limit⟩
      · refine Or.inr ⟨?_, .truncation, _, by rw [addQuestion, if_neg hpart, if_neg hlast, hput], h.of_holds rfl rfl hnew⟩
        rintro ⟨-, -, hle⟩
        rw [← hholds.cursor] at hle
        omega
    · exact Or.inr ⟨fun hall => hcount hall.2.1, .countOverflow, w, by
        rw [addQuestion, if_neg hpart, if_pos ((CountAux.eq_last_iff h.questionCount).2 hcount)], h⟩
  · have hpart : w.part ≠ .questions := by simp [h.part, hrecords]
    exact Or.inr ⟨fun hall => hrecords hall.1, .outOfOrder, w, by rw [addQuestion, if_pos hpart], h⟩

/-- An answer is added iff there is a number for it, its data are not too long, and it fits. If it is not, the draft stays. -/
theorem addAnswer_cases (h : w.Written d beyond) (x : Record) :
    (d.records.length < 65535 ∧ x.data.length ≤ maxMessageSize ∧
      d.octets.length + (Draft.recordOctets d.firstName x).length ≤ w.limit ∧
      ∃ w', w.addAnswer x.owner x.type x.cls x.ttl x.data = (.ok (), w') ∧ w'.Written (d.after (.addAnswer x)) beyond) ∨
    (¬(d.records.length < 65535 ∧ x.data.length ≤ maxMessageSize ∧
        d.octets.length + (Draft.recordOctets d.firstName x).length ≤ w.limit) ∧
      ∃ e w', w.addAnswer x.owner x.type x.cls x.ttl x.data = (.error e, w') ∧ w'.Written d beyond) := by
  by_cases hcount : d.records.length < 65535
  · have hlast : w.answerCount ≠ 65535 := fun he => (CountAux.eq_last_iff h.answerCount).1 he hcount
    by_cases hdata : x.data.length ≤ maxMessageSize
    · obtain ⟨free, hholds⟩ := h.holds
      have hput := put_cases hholds (answerPieces w.firstName x.owner x.type x.cls x.ttl x.data)
      have hpieces : (answerPieces w.firstName x.owner x.type x.cls x.ttl x.data).flatten =
          Draft.recordOctets d.firstName x := by rw [h.firstName, Draft.recordOctets]
      rw [hpieces] at hput
      rcases hput with ⟨hfit, buffer, cursor, hput, hnew⟩ | ⟨hlt, buffer, free', hput, hnew⟩
      · refine Or.inl ⟨hcount, hdata, hholds.cursor ▸ hfit, _, by
          rw [addAnswer, if_neg hlast, if_neg (Nat.not_lt.2 hdata), hput], ?_⟩
        have hcut : d.octets ++ Draft.recordOctets d.firstName x = d.header.take 6 ++
            Octets.ofU16 (UInt16.ofNat d.records.length) ++
            (d.header.drop 8 ++ (d.body ++ Draft.recordOctets d.firstName x)) := by
          rw [Draft.octets, List.append_assoc]
          rfl
        rw [hcut] at hnew
        have hset := hnew.setU16 (Octets.length_ofU16 _) (w.answerCount + 1)
        have hoctets := Draft.octets_addAnswer d x
        rw [← CountAux.next_eq h.answerCount] at hoctets
        rw [← hoctets] at hset
        have hpart : Section.answers = if d.records ++ [x] = [] then .questions else .answers := by simp
        exact ⟨hpart, h.questionCount, CountAux.toNat_next h.answerCount hcount, h.firstName,
          List.forall_mem_append.2 ⟨h.data, List.forall_mem_singleton.2 hdata⟩, _, hset.buffer, hset.cursor, hset.limit⟩
      · refine Or.inr ⟨?_, .truncation, _, by
          rw [addAnswer, if_neg hlast, if_neg (Nat.not_lt.2 hdata), hput], h.of_holds rfl rfl hnew⟩
        rintro ⟨-, -, hle⟩
        rw [← hholds.cursor] at hle
        omega
    · exact Or.inr ⟨fun hall => hdata hall.2.1, .truncation, w, by
        rw [addAnswer, if_neg hlast, if_pos (Nat.lt_of_not_le hdata)], h⟩
  · exact Or.inr ⟨fun hall => hcount hall.1, .countOverflow, w, by
      rw [addAnswer, if_pos ((CountAux.eq_last_iff h.answerCount).2 hcount)], h⟩

/-- A writer that answers a call has written the draft behind this call and its answer. -/
theorem answer (h : w.Written d beyond) (call : Call) :
    (w.answer call).2.Written (d.behind (call, (w.answer call).1)) beyond := by
  obtain ⟨free, hholds⟩ := h.holds
  cases call with
  | setId id =>
    exact h.of_holds rfl rfl (Holds.setU16 (a := []) (b := Octets.ofU16 d.id) (c := d.octets.drop 2) hholds
      (Octets.length_ofU16 _) id)
  | setResponse value =>
    exact h.setFlags (Draft.flags_set _ _ _ value _ d.opcode.toOctet_lt).1 rfl rfl rfl
  | setOpcode opcode =>
    exact h.setFlags (Draft.flags_setOpcode _ _ _ _ d.opcode.toOctet_lt _ opcode.toOctet_lt) rfl rfl rfl
  | setTruncated value =>
    exact h.setFlags (Draft.flags_set _ _ _ value _ d.opcode.toOctet_lt).2.1 rfl rfl rfl
  | setRecursionDesired value =>
    exact h.setFlags (Draft.flags_set _ _ _ value _ d.opcode.toOctet_lt).2.2 rfl rfl rfl
  | setRecursionAvailable value =>
    exact h.setCodes (Draft.codes_set _ value _ d.rcode.toOctet_lt _ d.rcode.toOctet_lt).1 rfl rfl rfl
  | setRcode rcode =>
    exact h.setCodes (Draft.codes_set _ false _ d.rcode.toOctet_lt _ rcode.toOctet_lt).2 rfl rfl rfl
  | addQuestion q =>
    rcases h.addQuestion_cases q with ⟨-, -, -, w', hadd, hw⟩ | ⟨-, e, w', hadd, hw⟩ <;>
    · rw [Writer.answer, hadd]
      exact hw
  | addAnswer x =>
    rcases h.addAnswer_cases x with ⟨-, -, -, w', hadd, hw⟩ | ⟨-, e, w', hadd, hw⟩ <;>
    · rw [Writer.answer, hadd]
      exact hw

/-- A writer that answers calls has written the draft behind these calls and their answers. -/
theorem transcript (h : w.Written d beyond) (calls : List Call) :
    (DnsRelay.transcript Writer.answer w calls).2.Written
      ((calls.zip (DnsRelay.transcript Writer.answer w calls).1).foldl Draft.behind d) beyond := by
  induction calls generalizing w d with
  | nil => exact h
  | cons call calls ih =>
    rw [transcript_cons, List.zip_cons_cons, List.foldl_cons]
    exact ih (h.answer call)

/-- What a writer has written says what the draft says. -/
theorem octets_eq (h : w.Written d beyond) : w.octets.toList = d.octets := by
  obtain ⟨free, hholds⟩ := h.holds
  rw [Writer.octets, Array.toList_extract, hholds.buffer, hholds.cursor, List.extract_eq_take_drop, List.drop_zero,
    Nat.sub_zero, List.append_assoc, List.take_left]

/-- A draft that was written with valid names is valid. -/
theorem valid (h : w.Written d beyond) (hnamed : d.Named) : d.Valid where
  questions := hnamed.questions
  records := fun x hx => ⟨hnamed.records x hx, h.data x hx⟩
  questionCount := h.questionCount ▸ Nat.le_of_lt_succ w.questionCount.toNat_lt
  answerCount := h.answerCount ▸ Nat.le_of_lt_succ w.answerCount.toNat_lt

end Written

/-- A writer is made over a buffer and with a limit that leave room for a header, and has written a blank draft. -/
theorem exists_make_written {buffer : Octets} {limit : Nat} (hbuffer : headerSize ≤ buffer.size) (hlimit : headerSize ≤ limit) :
    ∃ w, make buffer limit = .ok w ∧ w.limit = min limit buffer.size ∧
      w.Written Draft.blank (buffer.toList.drop (min limit buffer.size)) := by
  have hroom : headerSize ≤ min limit buffer.size := Nat.le_min.2 ⟨hlimit, hbuffer⟩
  have hsize : buffer.toList.length = buffer.size := Array.length_toList
  have hcleared : (buffer.overwrite 0 (List.replicate headerSize 0)).toList =
      List.replicate headerSize 0 ++ buffer.toList.drop headerSize :=
    Octets.toList_overwrite (a := []) (b := buffer.toList.take headerSize) (List.take_append_drop ..).symm
      (by rw [List.length_replicate, List.length_take, Nat.min_eq_left (hsize ▸ hbuffer)])
  have hfree : buffer.toList.drop headerSize = (buffer.toList.take (min limit buffer.size)).drop headerSize ++
      buffer.toList.drop (min limit buffer.size) := by
    have hle : headerSize ≤ (buffer.toList.take (min limit buffer.size)).length := by
      rw [List.length_take]
      omega
    rw [← List.drop_append_of_le_length hle, List.take_append_drop]
  refine ⟨_, if_neg (Nat.not_lt.2 hroom), rfl, rfl, rfl, rfl, rfl, List.forall_mem_nil _,
    (buffer.toList.take (min limit buffer.size)).drop headerSize, ?_, rfl, ?_⟩
  · show (buffer.overwrite 0 (List.replicate headerSize 0)).toList = _
    rw [hcleared, hfree, ← List.append_assoc]
    rfl
  · show min limit buffer.size = headerSize + ((buffer.toList.take (min limit buffer.size)).drop headerSize).length
    rw [List.length_drop, List.length_take]
    omega

/-- What a writer has written is read as what it was asked for. The octets in front of its cursor are a message, whose header
holds what was set last, with zero for what was never set, and counts what was added. Reading as many questions, and then as
many records, as it counts gives what was added, in order, and ends at the cursor. -/
theorem read_written (buffer : Octets) (limit : Nat) (hbuffer : headerSize ≤ buffer.size) (hlimit : headerSize ≤ limit)
    (calls : List Call) (hcalls : ∀ call ∈ calls, call.Valid) :
    ∃ w, make buffer limit = .ok w ∧
      let answers := (transcript answer w calls).1
      let written := (transcript answer w calls).2
      ∃ m, Message.ofOctets? written.octets = some m ∧ (Draft.ofCalls (calls.zip answers)).Reads m written.finish := by
  obtain ⟨w, hmake, -, hblank⟩ := exists_make_written hbuffer hlimit
  have hwritten := hblank.transcript calls
  have hvalid := hwritten.valid (Draft.named_ofCalls hcalls (transcript answer w calls).1)
  have hoctets := hwritten.octets_eq
  have hheader : headerSize ≤ (transcript answer w calls).2.octets.size := by
    rw [← Array.length_toList, hoctets, Draft.octets, List.length_append]
    exact Nat.le_add_right headerSize _
  refine ⟨w, hmake, ⟨_, hheader⟩, dif_pos hheader, ?_⟩
  rw [finish, hwritten.cursor_eq]
  exact Draft.reads_of_octets hvalid hoctets

/-- A buffer of 70 octets may be filled up to the 64th. The first answer does not fit, so a second question can still be added; a
third one comes too late. Of the two answers that fit, the first has the first name asked about, and is written with a pointer; the
second differs from it in case. The opcode is set twice. -/
theorem read_written_mixed :
    let small : Name := ⟨[1, 97, 0]⟩
    let capital : Name := ⟨[1, 65, 0]⟩
    let first : Question := ⟨small, RRType.a, RRClass.internet⟩
    let second : Question := ⟨capital, RRType.aaaa, RRClass.internet⟩
    let record (owner : Name) (data : List UInt8) : Record := ⟨owner, RRType.a, RRClass.internet, Ttl.ofWire 60, data⟩
    let buffer : Octets := Array.replicate 70 255
    let calls : List Call := [.setId 7, .setOpcode (.other 3), .addQuestion first, .addAnswer (record small (List.replicate 60 1)),
      .setResponse true, .addQuestion second, .addAnswer (record small [192, 0, 2, 1]), .addQuestion first,
      .addAnswer (record capital [192, 0, 2, 2]), .setOpcode .notify, .setRcode .refused]
    headerSize ≤ buffer.size ∧ headerSize ≤ 64 ∧ (∀ call ∈ calls, call.Valid) ∧
      ∃ w, make buffer 64 = .ok w ∧
        (transcript answer w calls).1 = [.ok (), .ok (), .ok (), .error .truncation, .ok (), .ok (), .ok (),
          .error .outOfOrder, .ok (), .ok (), .ok ()] ∧
        ∃ m, Message.ofOctets? (transcript answer w calls).2.octets = some m ∧
          (Draft.mk 7 true .notify false false false .refused [first, second]
            [record small [192, 0, 2, 1], record capital [192, 0, 2, 2]]).Reads m 59 := by
  intro small capital first second record buffer calls
  have hvalid : ∀ b, Name.Valid ⟨[1, b, 0]⟩ := fun b =>
    ⟨[[b]], by simp [Name.ValidLabel, Name.maxLabelLength], rfl, Nat.le_of_ble_eq_true rfl⟩
  have hcalls : ∀ call ∈ calls, call.Valid := by
    simp [calls, first, second, record, Call.Valid, small, capital, hvalid]
  let made : Writer := ⟨Array.replicate 12 0 ++ Array.replicate 58 255, 12, 64, .questions, 0, 0, none⟩
  have hmade : make buffer 64 = .ok made := by decide +kernel
  obtain ⟨w, hmake, m, hm, hreads⟩ := read_written buffer 64 (by decide) (by decide) calls hcalls
  obtain rfl : made = w := Except.ok.inj (hmade.symm.trans hmake)
  have hanswers : (transcript answer made calls).1 = [.ok (), .ok (), .ok (), .error .truncation, .ok (), .ok (), .ok (),
      .error .outOfOrder, .ok (), .ok (), .ok ()] := by decide +kernel
  have hstop : (transcript answer made calls).2.finish = 59 := by decide +kernel
  rw [hanswers, hstop] at hreads
  exact ⟨by decide, by decide, hcalls, made, hmade, hanswers, m, hm, hreads⟩

end Writer

end DnsRelay
