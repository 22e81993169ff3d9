import DnsRelay.Octets
import DnsRelay.Field

/-!
# Messages and their headers

A message begins with a header of twelve octets, which every `Message` has, so its fields can be read without looking at
the length again: the id, two octets of flags and codes, and four counts.
-/

namespace DnsRelay

/-- The octets of a header. -/
def headerSize : Nat := 12

/-- The longest message that a length of two octets can announce. -/
def maxMessageSize : Nat := 65535

/-- Octets that hold at least a header. -/
structure Message where
  octets : Octets
  hasHeader : headerSize ≤ octets.size
  deriving DecidableEq, Repr

namespace Header

/-- The bit that tells a response from a query, in octet 2. -/
def responseBit : UInt8 := 0x80

/-- The opcode, in octet 2. -/
def opcodeBits : UInt8 := 0x78

/-- The bit that says that the message was cut short, in octet 2. -/
def truncationBit : UInt8 := 0x02

/-- The bit that asks for recursion, in octet 2. -/
def recursionDesiredBit : UInt8 := 0x01

/-- The bit that offers recursion, in octet 3. -/
def recursionAvailableBit : UInt8 := 0x80

/-- The response code, in octet 3. -/
def rcodeBits : UInt8 := 0x0f

end Header

namespace Message

/-- Octets as a message, if they hold a header. -/
def ofOctets? (octets : Octets) : Option Message :=
  if h : headerSize ≤ octets.size then some ⟨octets, h⟩ else none

/-- An octet of the header. -/
def headerOctet (m : Message) (i : Fin 12) : UInt8 :=
  have : i.val < m.octets.size := Nat.lt_of_lt_of_le i.isLt m.hasHeader
  m.octets[i.val]

/-- The id, which a response repeats from its query. -/
def id (m : Message) : UInt16 :=
  Octets.u16 (m.headerOctet 0) (m.headerOctet 1)

/-- Whether the message is a response. -/
def isResponse (m : Message) : Bool :=
  m.headerOctet 2 &&& Header.responseBit != 0

/-- What the message asks for. -/
def opcode (m : Message) : Opcode :=
  Opcode.ofOctet ((m.headerOctet 2 &&& Header.opcodeBits) >>> 3)

/-- Whether the message was cut short. -/
def truncated (m : Message) : Bool :=
  m.headerOctet 2 &&& Header.truncationBit != 0

/-- Whether the sender asks for recursion. -/
def recursionDesired (m : Message) : Bool :=
  m.headerOctet 2 &&& Header.recursionDesiredBit != 0

/-- The response code. -/
def rcode (m : Message) : Rcode :=
  Rcode.ofOctet (m.headerOctet 3 &&& Header.rcodeBits)

/-- How many questions the header announces. -/
def questionCount (m : Message) : UInt16 :=
  Octets.u16 (m.headerOctet 4) (m.headerOctet 5)

/-- How many answer records the header announces. -/
def answerCount (m : Message) : UInt16 :=
  Octets.u16 (m.headerOctet 6) (m.headerOctet 7)

/-- How many authority records the header announces. -/
def authorityCount (m : Message) : UInt16 :=
  Octets.u16 (m.headerOctet 8) (m.headerOctet 9)

/-- How many additional records the header announces. -/
def additionalCount (m : Message) : UInt16 :=
  Octets.u16 (m.headerOctet 10) (m.headerOctet 11)

end Message

end DnsRelay
