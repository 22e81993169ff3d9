import DnsRelay.Message.Reader
import DnsRelay.Address.Basic

/-!
# Responses

What is read of a message that claims to answer a query: header, questions and answers. Only a message with exactly one
question has a question to compare.
-/

namespace DnsRelay

/-- Why octets are not a response. -/
inductive ResponseError where
  | unreadable (error : ReadError)
  | notResponse
  deriving DecidableEq, Repr

/-- The wording of a response error. -/
def ResponseError.message : ResponseError → String
  | .unreadable e => e.message
  | .notResponse => "message is not a response"

namespace Record

/-- The address that an internet record of one of the two address types holds. -/
def address? (x : Record) : Option Address :=
  if x.cls = RRClass.internet ∧ (x.type = RRType.a ∧ x.data.length = 4 ∨ x.type = RRType.aaaa ∧ x.data.length = 16)
  then Address.ofOctets? x.data
  else none

end Record

/-- A response and where it came from. -/
structure Response where
  id : UInt16
  rcode : Rcode
  truncated : Bool
  question : Option Question
  answers : List Record
  source : Endpoint
  deriving DecidableEq, Repr

namespace Response

/-- The question of a message that has exactly one. -/
def single? : List Question → Option Question
  | [q] => some q
  | _ => none

/-- Reads the response in `octets`, received from `source`. -/
def parse? (octets : Octets) (source : Endpoint) : Except ResponseError Response :=
  match Message.ofOctets? octets with
  | none => .error (.unreadable .headerTooShort)
  | some m =>
    if m.isResponse then do
      let reader := Reader.ofMessage m
      let (questions, reader) ← (reader.readQuestions m.questionCount.toNat).mapError .unreadable
      let (answers, _) ← (reader.readRecords m.answerCount.toNat).mapError .unreadable
      return {
        id := m.id
        rcode := m.rcode
        truncated := m.truncated
        question := single? questions
        answers
        source }
    else .error .notResponse

end Response

end DnsRelay
