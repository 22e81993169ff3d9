import DnsRelay.Message.Header
import DnsRelay.Question

/-!
# Writing messages

A writer fills a buffer up to a limit: header fields at any time, then questions, then answer records. An answer whose
owner is octet for octet the first name asked about is written as a pointer to it. A question or record that does not
fit moves nothing: the cursor, the counts and all octets in front of the cursor stay.
-/

namespace DnsRelay

/-- Why a writer cannot be made or cannot take a question or record. -/
inductive WriteError where
  | countOverflow
  | truncation
  | outOfOrder
  deriving DecidableEq, Repr

/-- The wording of a write error. -/
def WriteError.message : WriteError → String
  | .countOverflow => "record count would overflow"
  | .truncation => "message would be truncated"
  | .outOfOrder => "question or record serialized out of order"

/-- The section of the message that is being written. -/
inductive Section where
  | questions
  | answers
  deriving DecidableEq, Repr

/-- A message under construction in a buffer. -/
structure Writer where
  buffer : Octets
  cursor : Nat
  limit : Nat
  part : Section
  questionCount : UInt16
  answerCount : UInt16
  firstName : Option Name
  deriving DecidableEq, Repr

namespace Writer

/-- A writer over a buffer whose header is cleared; the limit is at most the size of the buffer. -/
def make (buffer : Octets) (limit : Nat) : Except WriteError Writer :=
  let limit := min limit buffer.size
  if limit < headerSize then .error .truncation
  else
    .ok {
      buffer := buffer.overwrite 0 (List.replicate headerSize 0)
      cursor := headerSize
      limit
      part := .questions
      questionCount := 0
      answerCount := 0
      firstName := none }

/-- Writes a number into the header. -/
def setU16 (w : Writer) (start : Nat) (n : UInt16) : Writer :=
  { w with buffer := w.buffer.overwrite start (Octets.ofU16 n) }

/-- Replaces the bits of an octet that `mask` selects. -/
def setBits (w : Writer) (index : Nat) (mask bits : UInt8) : Writer :=
  { w with buffer := w.buffer.modify index fun b => (b &&& ~~~mask) ||| bits }

/-- Sets or clears one bit. -/
def setFlag (w : Writer) (index : Nat) (bit : UInt8) (value : Bool) : Writer :=
  w.setBits index bit (if value then bit else 0)

/-- Sets the id. -/
def setId (w : Writer) (id : UInt16) : Writer :=
  w.setU16 0 id

/-- Sets whether the message is a response. -/
def setResponse (w : Writer) (value : Bool) : Writer :=
  w.setFlag 2 Header.responseBit value

/-- Sets the opcode. -/
def setOpcode (w : Writer) (opcode : Opcode) : Writer :=
  w.setBits 2 Header.opcodeBits (opcode.toOctet <<< 3)

/-- Sets whether the message was cut short. -/
def setTruncated (w : Writer) (value : Bool) : Writer :=
  w.setFlag 2 Header.truncationBit value

/-- Sets whether recursion is asked for. -/
def setRecursionDesired (w : Writer) (value : Bool) : Writer :=
  w.setFlag 2 Header.recursionDesiredBit value

/-- Sets whether recursion is offered. -/
def setRecursionAvailable (w : Writer) (value : Bool) : Writer :=
  w.setFlag 3 Header.recursionAvailableBit value

/-- Sets the response code. -/
def setRcode (w : Writer) (rcode : Rcode) : Writer :=
  w.setBits 3 Header.rcodeBits (rcode.toOctet &&& Header.rcodeBits)

/-- Writes pieces at the cursor one after another, and stops in front of the first that does not fit; the answer says
whether all of them fit. -/
def putAll (w : Writer) : List (List UInt8) → Bool × Writer
  | [] => (true, w)
  | piece :: pieces =>
    if w.cursor + piece.length ≤ w.limit then
      putAll { w with buffer := w.buffer.overwrite w.cursor piece, cursor := w.cursor + piece.length } pieces
    else (false, w)

/-- Writes pieces at the cursor; if they do not all fit, the cursor stays. -/
def put (w : Writer) (pieces : List (List UInt8)) : Bool × Writer :=
  let cursor := w.cursor
  match w.putAll pieces with
  | (true, w) => (true, w)
  | (false, w) => (false, { w with cursor })

/-- Adds a question, which has to come before all answers. -/
def addQuestion (w : Writer) (q : Question) : Except WriteError Unit × Writer :=
  if w.part ≠ .questions then (.error .outOfOrder, w)
  else if w.questionCount = 65535 then (.error .countOverflow, w)
  else
    match w.put q.pieces with
    | (false, w) => (.error .truncation, w)
    | (true, w) =>
      let count := w.questionCount + 1
      let firstName := if w.questionCount = 0 then some q.qname else w.firstName
      (.ok (), { w with firstName, questionCount := count }.setU16 4 count)

/-- A pointer to the first name of a message, which stands behind the header. -/
def firstNamePointer : List UInt8 := [0xc0, 0x0c]

/-- The octets of an answer record, piece by piece; its owner is a pointer if the first name asked about is the same. -/
def answerPieces (firstName : Option Name) (owner : Name) (type : RRType) (cls : RRClass) (ttl : Ttl)
    (data : List UInt8) : List (List UInt8) :=
  [if firstName = some owner then firstNamePointer else owner.wire, Octets.ofU16 type.code, Octets.ofU16 cls.code,
    Octets.ofU32 ttl.seconds, Octets.ofU16 (UInt16.ofNat data.length), data]

/-- Adds a record to the answers. -/
def addAnswer (w : Writer) (owner : Name) (type : RRType) (cls : RRClass) (ttl : Ttl) (data : List UInt8) :
    Except WriteError Unit × Writer :=
  if w.answerCount = 65535 then (.error .countOverflow, w)
  else if maxMessageSize < data.length then (.error .truncation, w)
  else
    match w.put (answerPieces w.firstName owner type cls ttl data) with
    | (false, w) => (.error .truncation, w)
    | (true, w) =>
      let count := w.answerCount + 1
      (.ok (), { w with part := .answers, answerCount := count }.setU16 6 count)

/-- The length of the message written so far. -/
def finish (w : Writer) : Nat :=
  w.cursor

/-- The message written so far. -/
def octets (w : Writer) : Octets :=
  w.buffer.extract 0 w.cursor

end Writer

end DnsRelay
