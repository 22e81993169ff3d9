import DnsRelay.Address.Text

/-!
# Blocklists

Networks whose addresses are known from forged answers.
-/

namespace DnsRelay

/-- A list of networks. -/
structure Blocklist where
  networks : List Network
  deriving DecidableEq, Repr

namespace Blocklist

/-- How many networks are listed. -/
def size (b : Blocklist) : Nat :=
  b.networks.length

/-- Whether no network is listed. -/
def isEmpty (b : Blocklist) : Bool :=
  b.networks.isEmpty

/-- The forms under which an address is looked up: itself, and the address that it is a mapped form of. -/
def forms : Address → List Address
  | .v4 bits => [.v4 bits]
  | .v6 bits => .v6 bits :: ((Address.unmapped? bits).map Address.v4).toList

/-- Whether an address lies in one of the networks. -/
def blocks (b : Blocklist) (a : Address) : Bool :=
  b.networks.any fun network => (forms a).any network.contains

end Blocklist

end DnsRelay
