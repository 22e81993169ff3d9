import DnsRelay.Proofs.Message.Reading
import DnsRelay.Proofs.Name.Chain
import DnsRelay.Proofs.Transcript

/-!
# The cursor of a reader

A reader is asked for questions and records one after another, and goes on where it stands after a failure. Its cursor stays behind
the header and inside the message (`Inside`), and whatever is read lies in front of it. `take?` reads as a program does that takes
the octets of a name unchecked and moves the cursor itself; nothing is past the end for it, and no failure moves the cursor
(`take?_eq`).
-/

namespace DnsRelay

/-- What a reader can be asked for. -/
inductive ReadCall where
  | question
  | record
  deriving DecidableEq, Repr

/-- What a reader answers. -/
inductive ReadAnswer where
  | question (q : Question)
  | record (x : Record)
  | failed (error : ReadError)
  deriving DecidableEq, Repr

namespace Reader

/-- A reader answers a call, and stays where it is if it cannot read what it is asked for. -/
def answer (r : Reader) : ReadCall → ReadAnswer × Reader
  | .question =>
    match r.readQuestion with
    | .ok (q, r') => (.question q, r')
    | .error e => (.failed e, r)
  | .record =>
    match r.readRecord with
    | .ok (x, r') => (.record x, r')
    | .error e => (.failed e, r)

/-- Everything that can come of a call: what is read, and the reader behind it, or a failure, and the same reader. -/
inductive Answers (r : Reader) : ReadAnswer → Reader → Prop where
  | question {q : Question} {r' : Reader} : r.readQuestion = .ok (q, r') → Answers r (.question q) r'
  | record {x : Record} {r' : Reader} : r.readRecord = .ok (x, r') → Answers r (.record x) r'
  | failed {e : ReadError} {r' : Reader} : r' = r → Answers r (.failed e) r'

/-- What comes of a call is one of these. -/
theorem answers_answer (r : Reader) (call : ReadCall) : Answers r (r.answer call).1 (r.answer call).2 := by
  cases call with
  | question =>
    rw [answer]
    split
    · rename_i hread
      exact .question hread
    · exact .failed rfl
  | record =>
    rw [answer]
    split
    · rename_i hread
      exact .record hread
    · exact .failed rfl

/-! ## Octets taken unchecked -/

/-- Steps that move a reader as they go. A step that fails leaves the reader where it is by then; the outer `none` is the
access past the end that a step may come to. -/
abbrev Moving := ExceptT ReadError (StateT Reader Option)

/-- Takes the name at a place without asking whether its octets are there. -/
def takeName (m : Message) (start : Nat) : Moving (Name × Nat) :=
  match Name.take? m.octets start with
  | none => fun _ => none
  | some (.error e) => throw (.invalidName e)
  | some (.ok (name, length)) => return (name, start + length)

/-- Takes the question at the cursor. -/
def takeQuestion : Moving Question := do
  let r ← get
  let (qname, stop) ← takeName r.message r.cursor
  let qtype ← MonadExcept.ofExcept (fieldAt? r.message stop)
  let qclass ← MonadExcept.ofExcept (fieldAt? r.message (stop + 2))
  set { r with cursor := stop + 4 }
  return ⟨qname, ⟨qtype⟩, ⟨qclass⟩⟩

/-- Takes the record at the cursor. -/
def takeRecord : Moving Record := do
  let r ← get
  let (owner, stop) ← takeName r.message r.cursor
  let type ← MonadExcept.ofExcept (fieldAt? r.message stop)
  let cls ← MonadExcept.ofExcept (fieldAt? r.message (stop + 2))
  let ttl ← MonadExcept.ofExcept (wideFieldAt? r.message (stop + 4))
  let length ← MonadExcept.ofExcept (fieldAt? r.message (stop + 8))
  match r.message.octets.slice? (stop + 10) length.toNat with
  | none => throw .unexpectedEndInData
  | some data =>
    set { r with cursor := stop + 10 + length.toNat }
    return ⟨owner, ⟨type⟩, ⟨cls⟩, Ttl.ofWire ttl, data⟩

/-- What a call takes. -/
def takes : ReadCall → Moving ReadAnswer
  | .question => .question <$> takeQuestion
  | .record => .record <$> takeRecord

/-- A reader answers a call as `answer` does, but takes the octets of names unchecked and is moved as it goes. -/
def take? (r : Reader) (call : ReadCall) : Option (ReadAnswer × Reader) :=
  ((takes call).run.run r).map fun
    | (.ok a, r') => (a, r')
    | (.error e, r') => (.failed e, r')

/-- A step does what reading does: it takes nothing past the end, has the same result, leaves the reader that reading gives, and
leaves the reader where it was if reading fails. -/
def Does {α : Type} (step : Moving α) (r : Reader) (reading : Except ReadError (α × Reader)) : Prop :=
  step.run.run r = some (match reading with
    | .ok (a, r') => (.ok a, r')
    | .error e => (.error e, r))

/-- A step that looks at octets and nothing else comes in front of others as the reading does that has its result. -/
theorem Does.look {α β : Type} {step : Moving α} {next : α → Moving β} {r : Reader} {seen : Except ReadError α}
    {reading : α → Except ReadError (β × Reader)} (hlook : step.run.run r = some (seen, r))
    (hnext : ∀ a, Does (next a) r (reading a)) : Does (step >>= next) r (seen >>= reading) := by
  unfold Does
  rw [ExceptT.run_bind, StateT.run_bind, hlook]
  cases seen with
  | error e => rfl
  | ok a => exact hnext a

/-- A step that asks for the reader goes on with it. -/
theorem Does.of_get {α : Type} {next : Reader → Moving α} {r : Reader} {reading : Except ReadError (α × Reader)}
    (h : Does (next r) r reading) : Does (get >>= next) r reading := h

/-- A name is taken as it is read. -/
theorem takeName_run (m : Message) (start : Nat) (r : Reader) : (takeName m start).run.run r = some (nameAt? m start, r) := by
  have htake : Name.take? m.octets start = some (Name.decode? m.octets start) := by
    rw [Name.take?, Name.Compressed.takeFrom_eq]
    rfl
  rw [takeName, nameAt?, htake]
  cases Name.decode? m.octets start <;> rfl

/-- A field is read. -/
theorem ofExcept_run {α : Type} (field : Except ReadError α) (r : Reader) :
    (MonadExcept.ofExcept field : Moving α).run.run r = some (field, r) := by
  cases field <;> rfl

/-- A question is taken as it is read. -/
theorem takeQuestion_does (r : Reader) : Does takeQuestion r r.readQuestion := by
  unfold takeQuestion readQuestion
  refine Does.of_get (.look (takeName_run _ _ r) fun found => ?_)
  exact .look (ofExcept_run _ r) fun qtype => .look (ofExcept_run _ r) fun qclass => rfl

/-- A record is taken as it is read. -/
theorem takeRecord_does (r : Reader) : Does takeRecord r r.readRecord := by
  unfold takeRecord readRecord
  refine Does.of_get (.look (takeName_run _ _ r) fun found => ?_)
  refine .look (ofExcept_run _ r) fun type => .look (ofExcept_run _ r) fun cls => ?_
  refine .look (ofExcept_run _ r) fun ttl => .look (ofExcept_run _ r) fun length => ?_
  cases r.message.octets.slice? (found.2 + 10) length.toNat <;> rfl

/-- A call is answered in the same way when octets are taken unchecked and the reader is moved as it goes: nothing is past the
end, and no failure moves the reader. -/
theorem take?_eq (r : Reader) (call : ReadCall) : r.take? call = some (r.answer call) := by
  cases call with
  | question =>
    have hdoes := takeQuestion_does r
    unfold Does at hdoes
    rw [take?, takes, answer, ExceptT.run_map, StateT.run_map, hdoes]
    cases r.readQuestion <;> rfl
  | record =>
    have hdoes := takeRecord_does r
    unfold Does at hdoes
    rw [take?, takes, answer, ExceptT.run_map, StateT.run_map, hdoes]
    cases r.readRecord <;> rfl

/-! ## Where the cursor stands -/

/-- `r'` stands in the same message as `r`, at least `n` octets further on, and not behind the end. -/
structure Advances (n : Nat) (r r' : Reader) : Prop where
  message : r'.message = r.message
  le_cursor : r.cursor + n ≤ r'.cursor
  cursor_le : r'.cursor ≤ r.message.octets.size

/-- A question takes up five octets at least: the null label and two fields. -/
theorem advances_of_readQuestion {r r' : Reader} {q : Question} (h : r.readQuestion = .ok (q, r')) : r.Advances 5 r' := by
  obtain ⟨stop, hn, -, hclass, rfl⟩ := (readQuestion_ok_iff r.message r.cursor q r').1 h
  have hlt := lt_of_nameAt? hn
  obtain ⟨hi, lo, -, hlo, -⟩ := (Octets.u16At?_eq_some_iff _ _ _).1 hclass
  have hle := (Array.getElem?_eq_some_iff.1 hlo).1
  exact ⟨rfl, by dsimp only; omega, hle⟩

/-- A record takes up eleven octets at least: the null label, four fields, and its data, which are the last octets in front of the
cursor, as many as the field in front of them says. -/
theorem advances_of_readRecord {r r' : Reader} {x : Record} (h : r.readRecord = .ok (x, r')) :
    r.Advances 11 r' ∧ ∃ (start : Nat) (length : UInt16), r.message.octets.u16At? start = some length ∧
      r.message.octets.slice? (start + 2) length.toNat = some x.data ∧ r'.cursor = start + 2 + length.toNat := by
  obtain ⟨stop, ttl, length, hn, -, -, -, -, hlength, hdata, rfl⟩ := (readRecord_ok_iff r.message r.cursor x r').1 h
  have hlt := lt_of_nameAt? hn
  have hle := ((Octets.slice?_eq_some_iff _ _ _ _).1 hdata).1
  exact ⟨⟨rfl, by dsimp only; omega, hle⟩, stop + 8, length, hlength, hdata, rfl⟩

/-- A reader stands in a message, behind the header and not behind the end. -/
structure Inside (m : Message) (r : Reader) : Prop where
  message : r.message = m
  header_le : headerSize ≤ r.cursor
  cursor_le : r.cursor ≤ m.octets.size

/-- At first a reader stands behind the header. -/
theorem inside_ofMessage (m : Message) : Inside m (ofMessage m) := ⟨rfl, Nat.le_refl _, m.hasHeader⟩

/-- A reader that advances stays inside. -/
theorem Inside.of_advances {m : Message} {n : Nat} {r r' : Reader} (h : Inside m r) (hadvances : r.Advances n r') :
    Inside m r' where
  message := hadvances.message.trans h.message
  header_le := Nat.le_trans h.header_le (Nat.le_trans (Nat.le_add_right _ _) hadvances.le_cursor)
  cursor_le := h.message ▸ hadvances.cursor_le

/-- A reader stays inside whatever comes of a call. -/
theorem Inside.of_answers {m : Message} {r r' : Reader} {a : ReadAnswer} (h : Inside m r) (hanswers : Answers r a r') :
    Inside m r' := by
  cases hanswers with
  | question hread => exact h.of_advances (advances_of_readQuestion hread)
  | record hread => exact h.of_advances (advances_of_readRecord hread).1
  | failed hsame => exact hsame ▸ h

/-! ## Call after call -/

/-- Whatever a reader is asked for, it stays inside its message. -/
theorem inside_stateAt (m : Message) (calls : List ReadCall) (k : Nat) : Inside m (stateAt answer (ofMessage m) calls k) :=
  stateAt_induction (P := Inside m) (fun r call h => h.of_answers (r.answers_answer call)) (Nat.zero_le k) (inside_ofMessage m)

end Reader

end DnsRelay
