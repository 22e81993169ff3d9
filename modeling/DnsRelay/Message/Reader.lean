import DnsRelay.Message.Header
import DnsRelay.Question
import DnsRelay.Name.Compressed

/-!
# Reading messages

A reader is a message and a place in it, at first behind the header. Reading a question or a record gives what was read
and the reader behind it; a failure gives no reader, so the place is not lost.
-/

namespace DnsRelay

/-- Why octets cannot be read as a message. -/
inductive ReadError where
  | headerTooShort
  | unexpectedEndInField
  | unexpectedEndInData
  | invalidName (error : NameError)
  deriving DecidableEq, Repr

/-- The wording of a read error. -/
def ReadError.message : ReadError → String
  | .headerTooShort => "header too short"
  | .unexpectedEndInField => "unexpected end of message in field"
  | .unexpectedEndInData => "unexpected end of message in RDATA"
  | .invalidName e => "invalid name: " ++ e.message

/-- A resource record. Its data are not looked into. -/
structure Record where
  owner : Name
  type : RRType
  cls : RRClass
  ttl : Ttl
  data : List UInt8
  deriving DecidableEq, Repr

/-- A message and the place where reading goes on. -/
structure Reader where
  message : Message
  cursor : Nat
  deriving DecidableEq, Repr

namespace Reader

/-- A reader behind the header. -/
def ofMessage (m : Message) : Reader :=
  ⟨m, headerSize⟩

/-- A reader behind the header of the octets. -/
def ofOctets? (octets : Octets) : Except ReadError Reader :=
  match Message.ofOctets? octets with
  | some m => .ok (ofMessage m)
  | none => .error .headerTooShort

/-- The name at a place, and the place behind it. -/
def nameAt? (m : Message) (start : Nat) : Except ReadError (Name × Nat) :=
  match Name.decode? m.octets start with
  | .ok (name, length) => .ok (name, start + length)
  | .error e => .error (.invalidName e)

/-- The two-octet field at a place. -/
def fieldAt? (m : Message) (start : Nat) : Except ReadError UInt16 :=
  match m.octets.u16At? start with
  | some n => .ok n
  | none => .error .unexpectedEndInField

/-- The four-octet field at a place. -/
def wideFieldAt? (m : Message) (start : Nat) : Except ReadError UInt32 :=
  match m.octets.u32At? start with
  | some n => .ok n
  | none => .error .unexpectedEndInField

/-- Reads the question at the cursor. -/
def readQuestion (r : Reader) : Except ReadError (Question × Reader) := do
  let (qname, stop) ← nameAt? r.message r.cursor
  let qtype ← fieldAt? r.message stop
  let qclass ← fieldAt? r.message (stop + 2)
  return (⟨qname, ⟨qtype⟩, ⟨qclass⟩⟩, { r with cursor := stop + 4 })

/-- Reads the record at the cursor. -/
def readRecord (r : Reader) : Except ReadError (Record × Reader) := do
  let (owner, stop) ← nameAt? r.message r.cursor
  let type ← fieldAt? r.message stop
  let cls ← fieldAt? r.message (stop + 2)
  let ttl ← wideFieldAt? r.message (stop + 4)
  let length ← fieldAt? r.message (stop + 8)
  match r.message.octets.slice? (stop + 10) length.toNat with
  | none => .error .unexpectedEndInData
  | some data =>
    return (⟨owner, ⟨type⟩, ⟨cls⟩, Ttl.ofWire ttl, data⟩, { r with cursor := stop + 10 + length.toNat })

/-- The text of a reader: the fields of the header and the place where it stands. -/
def summary (r : Reader) : String :=
  let m := r.message
  let flag (b : Bool) : String := if b then "true" else "false"
  "Reader \x7b " ++ ", ".intercalate [
    "id: " ++ Nat.repr m.id.toNat, "qr: " ++ flag m.isResponse, "opcode: " ++ m.opcode.label,
    "tc: " ++ flag m.truncated, "rd: " ++ flag m.recursionDesired, "rcode: " ++ m.rcode.label,
    "qdcount: " ++ Nat.repr m.questionCount.toNat, "ancount: " ++ Nat.repr m.answerCount.toNat,
    "nscount: " ++ Nat.repr m.authorityCount.toNat, "arcount: " ++ Nat.repr m.additionalCount.toNat,
    "cursor: " ++ Nat.repr r.cursor] ++ " \x7d"

/-- Reads `n` questions. -/
def readQuestions : Nat → Reader → Except ReadError (List Question × Reader)
  | 0, r => .ok ([], r)
  | n + 1, r => do
    let (q, r) ← r.readQuestion
    let (qs, r) ← readQuestions n r
    return (q :: qs, r)

/-- Reads `n` records. -/
def readRecords : Nat → Reader → Except ReadError (List Record × Reader)
  | 0, r => .ok ([], r)
  | n + 1, r => do
    let (x, r) ← r.readRecord
    let (xs, r) ← readRecords n r
    return (x :: xs, r)

end Reader

end DnsRelay
