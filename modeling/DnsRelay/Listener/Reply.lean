import DnsRelay.Message.Reader
import DnsRelay.Message.Writer
import DnsRelay.Message.Patch

/-!
# Replies to clients

Replies that the relay makes itself hold a header and at most a question. A relayed response gets the id of the client
and the name as the client wrote it. What a client takes by datagram is 512 octets, or more if its query says so.
-/

namespace DnsRelay.Reply

/-- What every client takes in one datagram. -/
def defaultPayloadSize : Nat := 512

/-- The header of a reply that the relay makes itself. -/
def setHeader (received : Message) (rcode : Rcode) (truncated : Bool) (w : Writer) : Writer :=
  let w := ((w.setId received.id).setResponse true).setOpcode received.opcode
  let w := if received.opcode = .query then w.setRecursionDesired received.recursionDesired else w
  ((w.setRecursionAvailable true).setTruncated truncated).setRcode rcode

/-- A reply of a header and, if one is given, a question. -/
def short (received : Message) (question : Option Question) (rcode : Rcode) (truncated : Bool) : Option Octets :=
  match Writer.make (Array.replicate defaultPayloadSize 0) defaultPayloadSize with
  | .error _ => none
  | .ok w =>
    let w := setHeader received rcode truncated w
    match question with
    | none => some w.octets
    | some q =>
      match w.addQuestion q with
      | (.ok (), w) => some w.octets
      | (.error _, _) => none

/-- The class of the first record for extensions among the next `n` records, which is the size it announces. -/
def announcedSize? : Nat → Reader → Option Nat
  | 0, _ => none
  | n + 1, r =>
    match r.readRecord with
    | .error _ => none
    | .ok (x, r) => if x.type = RRType.opt then some x.cls.code.toNat else announcedSize? n r

/-- What the sender of a query takes in one datagram. -/
def payloadSize (query : Message) : Nat :=
  let records := query.answerCount.toNat + query.authorityCount.toNat + query.additionalCount.toNat
  match (Reader.ofMessage query).readQuestions query.questionCount.toNat with
  | .error _ => defaultPayloadSize
  | .ok (_, r) => max defaultPayloadSize ((announcedSize? records r).getD 0)

/-- A response as the client gets it: with the client's id, and with the name as the client wrote it. -/
def restore (received : Message) (question : Question) (response : Octets) : Octets :=
  let response := response.setId received.id
  (response.overwriteName? question.qname).getD response

/-- The response code of a response, if it has one. -/
def rcodeOf (response : Octets) : Rcode :=
  match Message.ofOctets? response with
  | some m => m.rcode
  | none => .servFail

end DnsRelay.Reply
