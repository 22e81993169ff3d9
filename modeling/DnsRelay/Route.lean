import DnsRelay.Log
import DnsRelay.Message.Reader
import DnsRelay.Message.Writer

/-!
# Routes

For some names forged answers arrive. A probe tells: it asks a server that would not answer at all for the start of
authority, so an address in reply is forged, and the name has to be resolved by the trusted server. The verdicts are
kept in a table of bounded size, in which the case of a name does not count.
-/

namespace DnsRelay

/-- Which server resolves a name. -/
inductive Route where
  | direct
  | trusted
  deriving DecidableEq, Repr

namespace Route

/-- The name of a route. -/
def label : Route → String
  | .direct => "Direct"
  | .trusted => "Trusted"

end Route

/-- What is known about the route of a question. -/
inductive Decision where
  | known (route : Route)
  | probe
  deriving DecidableEq, Repr

namespace Decision

/-- The text of a decision. -/
def label : Decision → String
  | .known r => "Known(" ++ r.label ++ ")"
  | .probe => "Probe"

end Decision

/-- Names in small letters with their routes, the newest first. -/
structure RouteTable where
  capacity : Nat
  routes : List (Name × Route)
  deriving DecidableEq, Repr

namespace RouteTable

/-- How many names a table remembers if nothing else is said. -/
def defaultCapacity : Nat := 1031

/-- A table that remembers up to `capacity` names. -/
def empty (capacity : Nat) : RouteTable := ⟨capacity, []⟩

/-- How many names are remembered. -/
def size (t : RouteTable) : Nat :=
  t.routes.length

/-- Whether no name is remembered. -/
def isEmpty (t : RouteTable) : Bool :=
  t.routes.isEmpty

/-- The route of a name. -/
def get? (t : RouteTable) (name : Name) : Option Route :=
  (t.routes.find? (·.1.same name)).map (·.2)

/-- The route of a question. Questions that lead from addresses to names always go direct. -/
def decide (t : RouteTable) (q : Question) : Decision :=
  if q.qtype = RRType.ptr then .known .direct
  else
    match t.get? q.qname with
    | some route => .known route
    | none => .probe

/-- Remembers the route of a name. A full table takes no new name. -/
def insert (t : RouteTable) (name : Name) (route : Route) : Bool × RouteTable :=
  if t.capacity ≤ t.size ∧ t.get? name = none then (false, t)
  else (true, { t with routes := (name.lower, route) :: t.routes.filter fun e => !e.1.same name })

/-- What inserting the route of a name writes to the log: a warning if the name is refused. -/
def insertLog (t : RouteTable) (name : Name) (route : Route) : List LogRecord :=
  if (t.insert name route).1 then [] else [⟨.warn, "route table full; not remembering " ++ name.toString⟩]

end RouteTable

namespace Probe

/-- The question that a probe for a name asks. -/
def question (name : Name) : Question :=
  ⟨name, RRType.soa, RRClass.internet⟩

/-- The size of the buffer that a probe is written in. -/
def bufferSize : Nat := 512

/-- A query with this question, recursion desired and no id. -/
def message (q : Question) : Except WriteError Octets := do
  let w ← Writer.make (Array.replicate bufferSize 0) bufferSize
  match (w.setRecursionDesired true).addQuestion q with
  | (.ok (), w) => return w.octets
  | (.error e, _) => .error e

/-- The type of the first answer, if there is one. -/
def firstAnswerType? (octets : Octets) : Except ReadError (Option RRType) := do
  let r ← Reader.ofOctets? octets
  if r.message.answerCount = 0 then return none
  let (_, r) ← r.readQuestions r.message.questionCount.toNat
  let (x, _) ← r.readRecord
  return some x.type

/-- A reply whose first answer is an address is forged; an unreadable one is not held against the name. -/
def judge (octets : Octets) : Route :=
  match firstAnswerType? octets with
  | .ok (some type) => if type = RRType.a then .trusted else .direct
  | _ => .direct

end Probe

end DnsRelay
