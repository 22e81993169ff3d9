import Mathlib
import DnsRelay.Proofs.Message.Cursor

/-!
# What stands behind a message

Reading looks at the octets that are there and never asks where they end, except to see that all of them are. So what can be
read of octets can be read of them with any others behind (`Octets.Starts`), and is the same. The main result,
`Reader.reading_exact`, says this of responses, beside what the calls of a reader do to its cursor.
-/

namespace DnsRelay

/-- Octets with any others behind them: what stands in the former stands in the same place in the latter. -/
def Octets.Starts (octets octets' : Octets) : Prop :=
  ∀ (i : Nat) (b : UInt8), octets[i]? = some b → octets'[i]? = some b

namespace Octets

variable {octets octets' : Octets}

/-- Octets start themselves with others behind. -/
theorem starts_append (octets behind : Octets) : octets.Starts (octets ++ behind) := by
  intro i b h
  rw [Array.getElem?_append_left (Array.getElem?_eq_some_iff.1 h).1, h]

namespace Starts

/-- A number of two octets stays. -/
theorem u16At? (h : octets.Starts octets') {start : Nat} {n : UInt16} (hn : octets.u16At? start = some n) :
    octets'.u16At? start = some n := by
  obtain ⟨hi, lo, hhi, hlo, he⟩ := (u16At?_eq_some_iff _ _ _).1 hn
  exact (u16At?_eq_some_iff _ _ _).2 ⟨hi, lo, h _ _ hhi, h _ _ hlo, he⟩

/-- A number of four octets stays. -/
theorem u32At? (h : octets.Starts octets') {start : Nat} {n : UInt32} (hn : octets.u32At? start = some n) :
    octets'.u32At? start = some n := by
  obtain ⟨a, b, c, d, ha, hb, hc, hd, he⟩ := (u32At?_eq_some_iff _ _ _).1 hn
  exact (u32At?_eq_some_iff _ _ _).2 ⟨a, b, c, d, h _ _ ha, h _ _ hb, h _ _ hc, h _ _ hd, he⟩

/-- There are no fewer octets. -/
theorem size_le (h : octets.Starts octets') : octets.size ≤ octets'.size := by
  by_contra hlt
  have hlast : octets'.size < octets.size := Nat.lt_of_not_le hlt
  have hthere := h octets'.size octets[octets'.size] (Array.getElem?_eq_getElem hlast)
  exact absurd (Array.getElem?_eq_some_iff.1 hthere).1 (Nat.lt_irrefl _)

/-- A slice stays. -/
theorem slice? (h : octets.Starts octets') {start length : Nat} {l : List UInt8} (hl : octets.slice? start length = some l) :
    octets'.slice? start length = some l := by
  obtain ⟨hle, rfl⟩ := (slice?_eq_some_iff _ _ _ _).1 hl
  refine (slice?_eq_some_iff _ _ _ _).2 ⟨Nat.le_trans hle h.size_le, ?_⟩
  have he : octets'.extract start (start + length) = octets.extract start (start + length) := by
    refine Array.ext_getElem? fun k => ?_
    rw [Array.getElem?_extract, Array.getElem?_extract]
    have hsize := h.size_le
    by_cases hk : k < length
    · have hlt : start + k < octets.size := by omega
      rw [if_pos (by omega), if_pos (by omega), h _ _ (Array.getElem?_eq_getElem hlt), Array.getElem?_eq_getElem hlt]
    · rw [if_neg (by omega), if_neg (by omega)]
  rw [he]

end Starts

end Octets

/-- What is spelled in octets is spelled with any others behind: a name may go through any place in front of it, but every
octet of it is there. -/
theorem Name.Spelled.starts {octets octets' : Octets} (h : octets.Starts octets') {runStart index : Nat} {runs : List Nat}
    {labels : List (List UInt8)} {stop : Nat} (hs : Spelled octets runStart index runs labels stop) :
    Spelled octets' runStart index runs labels stop := by
  induction hs with
  | null h0 => exact .null (h _ _ h0)
  | pointer hhi hlo hle ht hlt _ ih => exact .pointer (h _ _ hhi) (h _ _ hlo) hle ht hlt ih
  | label hv hn hslice _ ih => exact .label hv (h _ _ hn) (h.slice? hslice) ih

/-- The header of a message stays. -/
theorem Message.headerOctet_of_starts {m m' : Message} (h : m.octets.Starts m'.octets) (i : Fin 12) :
    m'.headerOctet i = m.headerOctet i := by
  have hlt : i.val < m.octets.size := Nat.lt_of_lt_of_le i.isLt m.hasHeader
  exact m'.headerOctet_of_getElem? (h _ _ (Array.getElem?_eq_getElem hlt))

namespace Reader

variable {m' : Message} {r r' : Reader} (h : r.message.octets.Starts m'.octets)
include h

/-- A name that is read is read with any octets behind the message. -/
theorem nameAt?_of_starts {start : Nat} {name : Name} {stop : Nat} (hn : nameAt? r.message start = .ok (name, stop)) :
    nameAt? m' start = .ok (name, stop) := by
  obtain ⟨runs, labels, hs, hname⟩ := (Name.readFrom_ok_iff _ _ _ _ _ _).1 ((nameAt?_ok_iff _ _ _ _).1 hn)
  exact (nameAt?_ok_iff _ _ _ _).2 ((Name.readFrom_ok_iff _ _ _ _ _ _).2 ⟨runs, labels, hs.starts h, hname⟩)

/-- So is a question. -/
theorem readQuestion_of_starts {q : Question} (hq : r.readQuestion = .ok (q, r')) :
    r'.message = r.message ∧ (Reader.mk m' r.cursor).readQuestion = .ok (q, ⟨m', r'.cursor⟩) := by
  obtain ⟨stop, hn, htype, hclass, rfl⟩ := (readQuestion_ok_iff r.message r.cursor q r').1 hq
  exact ⟨rfl, (readQuestion_ok_iff _ _ _ _).2 ⟨stop, nameAt?_of_starts h hn, h.u16At? htype, h.u16At? hclass, rfl⟩⟩

/-- So is a record. -/
theorem readRecord_of_starts {x : Record} (hx : r.readRecord = .ok (x, r')) :
    r'.message = r.message ∧ (Reader.mk m' r.cursor).readRecord = .ok (x, ⟨m', r'.cursor⟩) := by
  obtain ⟨stop, ttl, length, hn, htype, hclass, httl, hread, hlength, hdata, rfl⟩ :=
    (readRecord_ok_iff r.message r.cursor x r').1 hx
  exact ⟨rfl, (readRecord_ok_iff _ _ _ _).2 ⟨stop, ttl, length, nameAt?_of_starts h hn, h.u16At? htype, h.u16At? hclass,
    h.u32At? httl, hread, h.u16At? hlength, h.slice? hdata, rfl⟩⟩

/-- So are several questions. -/
theorem readQuestions_of_starts {n : Nat} {qs : List Question} (hqs : r.readQuestions n = .ok (qs, r')) :
    r'.message = r.message ∧ (Reader.mk m' r.cursor).readQuestions n = .ok (qs, ⟨m', r'.cursor⟩) := by
  induction n generalizing r qs with
  | zero =>
    cases hqs
    exact ⟨rfl, rfl⟩
  | succ n ih =>
    obtain ⟨q, r₁, others, hq, hothers, rfl⟩ := (readQuestions_succ_ok_iff _ _ _ _).1 hqs
    obtain ⟨hm₁, hq'⟩ := readQuestion_of_starts h hq
    obtain ⟨hm, hothers'⟩ := ih (hm₁ ▸ h) hothers
    exact ⟨hm.trans hm₁, (readQuestions_succ_ok_iff _ _ _ _).2 ⟨q, _, others, hq', hothers', rfl⟩⟩

/-- So are several records. -/
theorem readRecords_of_starts {n : Nat} {xs : List Record} (hxs : r.readRecords n = .ok (xs, r')) :
    r'.message = r.message ∧ (Reader.mk m' r.cursor).readRecords n = .ok (xs, ⟨m', r'.cursor⟩) := by
  induction n generalizing r xs with
  | zero =>
    cases hxs
    exact ⟨rfl, rfl⟩
  | succ n ih =>
    obtain ⟨x, r₁, others, hx, hothers, rfl⟩ := (readRecords_succ_ok_iff _ _ _ _).1 hxs
    obtain ⟨hm₁, hx'⟩ := readRecord_of_starts h hx
    obtain ⟨hm, hothers'⟩ := ih (hm₁ ▸ h) hothers
    exact ⟨hm.trans hm₁, (readRecords_succ_ok_iff _ _ _ _).2 ⟨x, _, others, hx', hothers', rfl⟩⟩

end Reader

/-- A response that is read is read with any octets behind the message. -/
theorem Response.parse?_of_starts {octets octets' : Octets} (h : octets.Starts octets') {source : Endpoint} {response : Response}
    (hp : parse? octets source = .ok response) : parse? octets' source = .ok response := by
  obtain ⟨m, qs, r, xs, r', hm, hresponse, hqs, hxs, rfl⟩ := (parse?_ok_iff _ _ _).1 hp
  obtain rfl := (Message.ofOctets?_eq_some_iff _ _).1 hm
  obtain ⟨m', rfl⟩ : ∃ m' : Message, m'.octets = octets' := ⟨⟨octets', Nat.le_trans m.hasHeader h.size_le⟩, rfl⟩
  have hoctet : ∀ i : Fin 12, m'.headerOctet i = m.headerOctet i := Message.headerOctet_of_starts h
  obtain ⟨hresponse', hquestions, hanswers⟩ := Message.fields_eq fun i _ => hoctet i
  have hid : m'.id = m.id := by rw [Message.id, Message.id, hoctet, hoctet]
  have hrcode : m'.rcode = m.rcode := by rw [Message.rcode, Message.rcode, hoctet]
  have htruncated : m'.truncated = m.truncated := by rw [Message.truncated, Message.truncated, hoctet]
  obtain ⟨hmessage, hqs'⟩ := Reader.readQuestions_of_starts (r := Reader.ofMessage m) h hqs
  have hrest : r.message.octets.Starts m'.octets := by
    rw [hmessage]
    exact h
  obtain ⟨-, hxs'⟩ := Reader.readRecords_of_starts hrest hxs
  refine (parse?_ok_iff _ _ _).2 ⟨m', qs, ⟨m', r.cursor⟩, xs, ⟨m', r'.cursor⟩, (Message.ofOctets?_eq_some_iff _ _).2 rfl, ?_⟩
  rw [hresponse', hquestions, hanswers, hid, hrcode, htruncated]
  exact ⟨hresponse, hqs', hxs', rfl⟩

/-- A response has as many answers as the header says, and a question iff the header says that there is one. -/
theorem Response.counts_of_parse? {octets : Octets} {source : Endpoint} {response : Response}
    (hp : parse? octets source = .ok response) : ∃ m, Message.ofOctets? octets = some m ∧
      response.answers.length = m.answerCount.toNat ∧ (response.question.isSome ↔ m.questionCount = 1) := by
  obtain ⟨m, qs, r, xs, r', hm, -, hqs, hxs, rfl⟩ := (parse?_ok_iff _ _ _).1 hp
  refine ⟨m, hm, Reader.length_readRecords hxs, ?_⟩
  have hlength := Reader.length_readQuestions hqs
  rw [Option.isSome_iff_exists]
  constructor
  · rintro ⟨q, hq⟩
    rw [(single?_eq_some_iff qs q).1 hq] at hlength
    exact UInt16.toNat_inj.1 hlength.symm
  · intro hcount
    rw [hcount] at hlength
    obtain ⟨q, rfl⟩ := List.length_eq_one_iff.1 hlength
    exact ⟨q, rfl⟩

/-- The cursor of a reader stays inside the message, and a call that fails leaves it. A question moves it by five octets or
more, a record by eleven or more and to the end of data as long as announced; nothing is taken past the end. A response that
can be read is read alike with any octets behind it, and has as many answers, and a question, as its header says. -/
theorem Reader.reading_exact :
    (∀ (m : Message) (calls : List ReadCall) (k : Nat),
      let reader := stateAt answer (ofMessage m) calls
      let answers := (transcript answer (ofMessage m) calls).1
      ((reader k).message = m ∧ 12 ≤ (reader k).cursor ∧ (reader k).cursor ≤ m.octets.size ∧
        ∀ e, answers[k]? = some (.failed e) → reader (k + 1) = reader k) ∧
      (∀ q, answers[k]? = some (.question q) → (reader k).cursor + 5 ≤ (reader (k + 1)).cursor) ∧
      (∀ x, answers[k]? = some (.record x) → (reader k).cursor + 11 ≤ (reader (k + 1)).cursor ∧
        ∃ (start : Nat) (length : UInt16), m.octets.u16At? start = some length ∧
          m.octets.slice? (start + 2) length.toNat = some x.data ∧ (reader (k + 1)).cursor = start + 2 + length.toNat) ∧
      ∀ call, (reader k).take? call = some ((reader k).answer call)) ∧
    ∀ (octets behind : Octets) (source : Endpoint) (response : Response), Response.parse? octets source = .ok response →
      Response.parse? (octets ++ behind) source = .ok response ∧ ∃ m, Message.ofOctets? octets = some m ∧
        response.answers.length = m.answerCount.toNat ∧ (response.question.isSome ↔ m.questionCount = 1) := by
  refine ⟨fun m calls k => ?_, fun octets behind source response hp => ?_⟩
  · intro reader answers
    have hinside : Inside m (reader k) := inside_stateAt m calls k
    -- an answer is what comes of the call, and leads to the next reader
    have hanswers {a : ReadAnswer} (ha : answers[k]? = some a) : Answers (reader k) a (reader (k + 1)) := by
      rw [getElem?_transcript] at ha
      obtain ⟨call, hk, rfl⟩ := Option.map_eq_some_iff.1 ha
      have hnext : reader (k + 1) = ((reader k).answer call).2 := stateAt_succ hk
      rw [hnext]
      exact (reader k).answers_answer call
    refine ⟨⟨hinside.message, hinside.header_le, hinside.cursor_le, fun e he => ?_⟩, fun q hq => ?_, fun x hx => ?_, ?_⟩
    · cases hanswers he with
      | failed hsame => exact hsame
    · cases hanswers hq with
      | question hread => exact (advances_of_readQuestion hread).le_cursor
    · cases hanswers hx with
      | record hread =>
        obtain ⟨hadvances, hdata⟩ := advances_of_readRecord hread
        rw [hinside.message] at hdata
        exact ⟨hadvances.le_cursor, hdata⟩
    · exact take?_eq (reader k)
  · exact ⟨Response.parse?_of_starts (Octets.starts_append octets behind) hp, Response.counts_of_parse? hp⟩

/-- The question of a response and its answer, whose owner is a pointer, are read, and then the end is met. With two octets
behind, the response is the same. -/
theorem Reader.reading_exact_compressed :
    let octets : Octets := #[0, 7, 129, 128, 0, 1, 0, 1, 0, 0, 0, 0, 1, 97, 0, 0, 1, 0, 1, 192, 12, 0, 1, 0, 1, 0, 0, 0, 60, 0, 4,
      192, 0, 2, 1]
    let m : Message := ⟨octets, by decide⟩
    let q : Question := ⟨⟨[1, 97, 0]⟩, RRType.a, RRClass.internet⟩
    let x : Record := ⟨⟨[1, 97, 0]⟩, RRType.a, RRClass.internet, Ttl.ofWire 60, [192, 0, 2, 1]⟩
    let response : Response := ⟨7, .noError, false, some q, [x], .v4 1 53⟩
    let calls : List ReadCall := [.question, .record, .record]
    (transcript answer (ofMessage m) calls).1 = [.question q, .record x, .failed (.invalidName .unexpectedEnd)] ∧
      stateAt answer (ofMessage m) calls 3 = stateAt answer (ofMessage m) calls 2 ∧
      Response.parse? octets (.v4 1 53) = .ok response ∧ Response.parse? (octets ++ #[0, 1]) (.v4 1 53) = .ok response := by
  intro octets m q x response calls
  have hanswers : (transcript answer (ofMessage m) calls).1 =
      [.question q, .record x, .failed (.invalidName .unexpectedEnd)] := by cbv
  have hp : Response.parse? octets (.v4 1 53) = .ok response := by cbv
  obtain ⟨⟨-, -, -, hfails⟩, -⟩ := reading_exact.1 m calls 2
  exact ⟨hanswers, hfails _ (by rw [hanswers]; rfl), hp, (reading_exact.2 octets #[0, 1] _ _ hp).1⟩

end DnsRelay
