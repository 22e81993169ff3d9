/-!
# Addresses

Addresses of both families, endpoints (an address and a number that tells the services of one host apart) and networks.
An address of the older family may also be written inside the newer one, behind eighty zero bits and sixteen one bits;
`Endpoint.canonical` undoes that, and addresses are compared in canonical form.
-/

namespace DnsRelay

/-- An address of one of the two families. -/
inductive Address where
  | v4 (bits : BitVec 32)
  | v6 (bits : BitVec 128)
  deriving DecidableEq, Repr

namespace Address

/-- The number that stands in front of an address of 32 bits when it is written in 128. -/
def mappedMark : BitVec 96 := 0xffff#96

/-- The address of 32 bits that is written inside one of 128 bits. -/
def unmapped? (bits : BitVec 128) : Option (BitVec 32) :=
  if bits.extractLsb' 32 96 = mappedMark then some (bits.extractLsb' 0 32) else none

/-- An address of 32 bits written in 128. -/
def mapped (bits : BitVec 32) : BitVec 128 :=
  mappedMark ++ bits

/-- The number that a run of octets stands for, the highest first. -/
def numberOfOctets (octets : List UInt8) : Nat :=
  octets.foldl (fun n b => n * 256 + b.toNat) 0

/-- Four or sixteen octets as an address. -/
def ofOctets? (octets : List UInt8) : Option Address :=
  match octets.length with
  | 4 => some (.v4 (BitVec.ofNat 32 (numberOfOctets octets)))
  | 16 => some (.v6 (BitVec.ofNat 128 (numberOfOctets octets)))
  | _ => none

end Address

/-- A service on a host: an address and the number of the service, and in the newer family also a flow label and, for
addresses that are local to a link, a zone. -/
inductive Endpoint where
  | v4 (bits : BitVec 32) (number : UInt16)
  | v6 (bits : BitVec 128) (flow scope : UInt32) (number : UInt16)
  deriving DecidableEq, Repr

namespace Endpoint

/-- The number of the service. -/
def number : Endpoint → UInt16
  | .v4 _ n => n
  | .v6 _ _ _ n => n

/-- The endpoint with a mapped address written as the address it stands for. -/
def canonical : Endpoint → Endpoint
  | .v4 bits n => .v4 bits n
  | .v6 bits flow scope n =>
    match Address.unmapped? bits with
    | some inner => .v4 inner n
    | none => .v6 bits flow scope n

end Endpoint

/-- The addresses of one family that begin with the same bits as a given one. -/
inductive Network where
  | v4 (bits : BitVec 32) (length : Fin 33)
  | v6 (bits : BitVec 128) (length : Fin 129)
  deriving DecidableEq, Repr

namespace Network

/-- The network of one address alone. -/
def single : Address → Network
  | .v4 bits => .v4 bits 32
  | .v6 bits => .v6 bits 128

/-- Whether the first `length` bits of two words are the same. -/
def agree {w : Nat} (length : Nat) (a b : BitVec w) : Bool :=
  a >>> (w - length) == b >>> (w - length)

/-- Whether an address lies in the network, as the notation of an address and a length has it: the address is of the same
family, and as many of its first bits as the length says are those of the network. The other bits of either do not count,
and a mapped address lies in networks of its own family only. -/
def contains : Network → Address → Bool
  | .v4 bits length, .v4 a => agree length bits a
  | .v6 bits length, .v6 a => agree length bits a
  | _, _ => false

end Network

end DnsRelay
