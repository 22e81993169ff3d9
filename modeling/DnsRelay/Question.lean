import DnsRelay.Name.Text
import DnsRelay.Field

/-!
# Questions

What a query asks about: a name, a type and a class. `=` compares questions octet for octet, `Question.same` ignores the
case of the name.
-/

namespace DnsRelay

/-- A name, and which records of it are wanted. -/
structure Question where
  qname : Name
  qtype : RRType
  qclass : RRClass
  deriving DecidableEq, Repr

namespace Question

/-- Equality of questions, up to the case of the name. -/
def same (a b : Question) : Bool :=
  a.qname.same b.qname && a.qtype = b.qtype && a.qclass = b.qclass

/-- The text of a question: its name, class and type. -/
def toString (q : Question) : String :=
  q.qname.toString ++ " " ++ q.qclass.toString ++ " " ++ q.qtype.toString

instance : ToString Question := ⟨Question.toString⟩

/-- The octets of a question in a message, piece by piece. -/
def pieces (q : Question) : List (List UInt8) :=
  [q.qname.wire, Octets.ofU16 q.qtype.code, Octets.ofU16 q.qclass.code]

end Question

end DnsRelay
