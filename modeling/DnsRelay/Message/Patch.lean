import DnsRelay.Message.Header
import DnsRelay.Name.Basic

/-!
# Changing a message in place

A relayed message keeps its octets but for its id and for the case of the name it asks about.
-/

namespace DnsRelay.Octets

/-- The message with another id; less than two octets have none and stay. -/
def setId (octets : Octets) (id : UInt16) : Octets :=
  if 2 ≤ octets.size then octets.overwrite 0 (ofU16 id) else octets

/-- The message with `name` written over the uncompressed name behind the header, if that name differs from it at most
in case. -/
def overwriteName? (octets : Octets) (name : Name) : Option Octets :=
  match octets.slice? headerSize name.wire.length with
  | some present => if sameIgnoringCase present name.wire then some (octets.overwrite headerSize name.wire) else none
  | none => none

end DnsRelay.Octets
