/-!
# Numbers with names

Record types, classes, times to live, opcodes and response codes: the numbers of a message that have names of their own,
their readings from the wire and the texts they are shown as.
-/

namespace DnsRelay

/-- The type of a record or of a question. -/
structure RRType where
  code : UInt16
  deriving DecidableEq, Repr

namespace RRType

def a : RRType := ⟨1⟩
def ns : RRType := ⟨2⟩
def cname : RRType := ⟨5⟩
def soa : RRType := ⟨6⟩
def ptr : RRType := ⟨12⟩
def mx : RRType := ⟨15⟩
def txt : RRType := ⟨16⟩
def aaaa : RRType := ⟨28⟩
def srv : RRType := ⟨33⟩
def opt : RRType := ⟨41⟩
def any : RRType := ⟨255⟩

/-- The types that are shown by name. -/
def names : List (RRType × String) :=
  [(a, "A"), (ns, "NS"), (cname, "CNAME"), (soa, "SOA"), (ptr, "PTR"), (mx, "MX"), (txt, "TXT"), (aaaa, "AAAA"),
    (srv, "SRV"), (opt, "OPT"), (any, "ANY")]

/-- A type is shown by its name, and by its number if it has none here. -/
def toString (t : RRType) : String :=
  (names.lookup t).getD ("TYPE" ++ Nat.repr t.code.toNat)

instance : ToString RRType := ⟨RRType.toString⟩

end RRType

/-- The class of a record or of a question. -/
structure RRClass where
  code : UInt16
  deriving DecidableEq, Repr

namespace RRClass

def internet : RRClass := ⟨1⟩
def chaos : RRClass := ⟨3⟩
def any : RRClass := ⟨255⟩

/-- The classes that are shown by name. -/
def names : List (RRClass × String) :=
  [(internet, "IN"), (chaos, "CH"), (any, "ANY")]

/-- A class is shown by its name, and by its number if it has none here. -/
def toString (c : RRClass) : String :=
  (names.lookup c).getD ("CLASS" ++ Nat.repr c.code.toNat)

instance : ToString RRClass := ⟨RRClass.toString⟩

end RRClass

/-- A time to live in seconds, which takes at most 31 bits. -/
structure Ttl where
  seconds : UInt32
  bounded : seconds.toNat < 2147483648
  deriving DecidableEq, Repr

namespace Ttl

/-- A number on the wire with its top bit set stands for no time at all. -/
def ofWire (raw : UInt32) : Ttl :=
  if h : raw.toNat < 2147483648 then ⟨raw, h⟩ else ⟨0, by decide⟩

/-- The number of seconds. -/
def toString (t : Ttl) : String :=
  Nat.repr t.seconds.toNat

instance : ToString Ttl := ⟨Ttl.toString⟩

end Ttl

/-- What a message asks of a server: four bits of the header. -/
inductive Opcode where
  | query
  | inverseQuery
  | status
  | notify
  | update
  | other (value : UInt8)
  deriving DecidableEq, Repr

namespace Opcode

/-- The opcode that the low four bits of an octet stand for. -/
def ofOctet (b : UInt8) : Opcode :=
  match b &&& 0x0f with
  | 0 => .query
  | 1 => .inverseQuery
  | 2 => .status
  | 4 => .notify
  | 5 => .update
  | v => .other v

/-- The four bits of an opcode. -/
def toOctet : Opcode → UInt8
  | .query => 0
  | .inverseQuery => 1
  | .status => 2
  | .notify => 4
  | .update => 5
  | .other v => v &&& 0x0f

/-- The name of an opcode. -/
def label : Opcode → String
  | .query => "Query"
  | .inverseQuery => "IQuery"
  | .status => "Status"
  | .notify => "Notify"
  | .update => "Update"
  | .other v => "Other(" ++ Nat.repr v.toNat ++ ")"

end Opcode

/-- How a server answered: four bits of the header. -/
inductive Rcode where
  | noError
  | formErr
  | servFail
  | nxDomain
  | notImp
  | refused
  | other (value : UInt8)
  deriving DecidableEq, Repr

namespace Rcode

/-- The response code that the low four bits of an octet stand for. -/
def ofOctet (b : UInt8) : Rcode :=
  match b &&& 0x0f with
  | 0 => .noError
  | 1 => .formErr
  | 2 => .servFail
  | 3 => .nxDomain
  | 4 => .notImp
  | 5 => .refused
  | v => .other v

/-- The four bits of a response code. -/
def toOctet : Rcode → UInt8
  | .noError => 0
  | .formErr => 1
  | .servFail => 2
  | .nxDomain => 3
  | .notImp => 4
  | .refused => 5
  | .other v => v &&& 0x0f

/-- The name of a response code. -/
def label : Rcode → String
  | .noError => "NoError"
  | .formErr => "FormErr"
  | .servFail => "ServFail"
  | .nxDomain => "NxDomain"
  | .notImp => "NotImp"
  | .refused => "Refused"
  | .other v => "Other(" ++ Nat.repr v.toNat ++ ")"

/-- A response code as servers write it. -/
def toString : Rcode → String
  | .noError => "NOERROR"
  | .formErr => "FORMERR"
  | .servFail => "SERVFAIL"
  | .nxDomain => "NXDOMAIN"
  | .notImp => "NOTIMP"
  | .refused => "REFUSED"
  | .other v => "RCODE" ++ Nat.repr v.toNat

instance : ToString Rcode := ⟨Rcode.toString⟩

end Rcode

end DnsRelay
