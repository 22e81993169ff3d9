import DnsRelay.Forward.Exchange
import DnsRelay.Listener.Reply
import DnsRelay.Log
import DnsRelay.Route

/-!
# Handling queries of clients

A listener looks at what a client sends, chooses the servers to ask, has them asked, and makes the reply. How queries
are sent is a parameter (`Sender`), so that what the listener does can be told for every outcome of sending.
-/

namespace DnsRelay

/-- What a client is told when the servers did not answer in time. -/
inductive TimeoutPolicy where
  | servFail
  | silent
  deriving DecidableEq, Repr

/-- The name of a policy. -/
def TimeoutPolicy.label : TimeoutPolicy → String
  | .servFail => "ServFail"
  | .silent => "Silent"

/-- Where probes go, and what they have shown. -/
structure Probing where
  resolver : Resolver
  routes : RouteTable
  deriving DecidableEq, Repr

/-- The servers to ask and what a listener has learned. The secondary server is also the trusted one. -/
structure Listener where
  primary : Resolver
  secondary : Option Resolver
  probing : Option Probing
  timeoutPolicy : TimeoutPolicy
  retrySecondary : Bool
  deriving DecidableEq, Repr

/-- A message from a client, and how it came. -/
structure Received where
  octets : Octets
  client : Endpoint
  transport : Transport
  deriving DecidableEq, Repr

/-- What is to be done with a message from a client. -/
inductive Triage where
  | ignore (log : List LogRecord)
  | refuse (received : Message) (rcode : Rcode)
  | forward (received : Message) (question : Question)
  deriving DecidableEq, Repr

namespace Listener

/-- Decides what is to be done with the octets of a client: only queries with one readable question are forwarded. -/
def triage (octets : Octets) (client : Endpoint) : Triage :=
  match Message.ofOctets? octets with
  | none => .ignore []
  | some m =>
    if m.isResponse then .ignore []
    else if m.opcode ≠ .query then .refuse m .notImp
    else if m.questionCount ≠ 1 then .refuse m .formErr
    else
      match (Reader.ofMessage m).readQuestion with
      | .ok (q, _) => .forward m q
      | .error e => .ignore [⟨.debug, "unreadable question from " ++ client.toString ++ ": " ++ e.message⟩]

/-- The server to ask first and the one to fall back on. A name whose answers are forged goes to the trusted server
alone, if there is one. -/
def servers (l : Listener) (route : Route) : Resolver × Option Resolver :=
  match route, l.secondary with
  | .trusted, some trusted => (trusted, none)
  | _, _ => (l.primary, l.secondary)

/-- What a probe has shown, if anything: an accepted reply is judged, and silence counts as honest. -/
def verdict? : Except ForwardError Octets → Except ForwardError Route
  | .ok reply => .ok (Probe.judge reply)
  | .error .timedOut => .ok .direct
  | .error e => .error e

variable {σ : Type}

/-- Probes a name, and remembers what the probe has shown. -/
def probe (l : Listener) (p : Probing) (send : Sender σ) (s : σ) (name : Name) (client : Endpoint) :
    Route × List LogRecord × Listener × σ :=
  let question := Probe.question name
  match Probe.message question with
  | .error _ => (.direct, [], l, s)
  | .ok message =>
    let (result, s) := exchange send l.retrySecondary s ⟨message, question, client, .probe⟩ p.resolver none
    match verdict? result with
    | .error e => (.direct, [⟨.debug, "probe for " ++ name.toString ++ " failed: " ++ e.message⟩], l, s)
    | .ok route =>
      let log := ⟨.debug, name.toString ++ " routed " ++ route.label⟩ :: p.routes.insertLog name route
      let routes := (p.routes.insert name route).2
      (route, log, { l with probing := some { p with routes } }, s)

/-- The route of a question, which takes a probe if none is known. Without probing every name goes direct. -/
def routeOf (l : Listener) (send : Sender σ) (s : σ) (q : Question) (client : Endpoint) :
    Route × List LogRecord × Listener × σ :=
  match l.probing with
  | none => (.direct, [], l, s)
  | some p =>
    match p.routes.decide q with
    | .known route => (route, [], l, s)
    | .probe => l.probe p send s q.qname client

/-- The reply to a client for what came of its query. -/
def conclude (l : Listener) (transport : Transport) (client : Endpoint) (received : Message) (q : Question) :
    Except ForwardError Octets → Option Octets × List LogRecord
  | .ok response =>
    let reply := Reply.restore received q response
    if transport = .udp ∧ Reply.payloadSize received < reply.size then
      (Reply.short received (some q) (Reply.rcodeOf reply) true, [])
    else (some reply, [])
  | .error e =>
    let whom := client.toString ++ " for " ++ q.toString ++ ": " ++ e.message
    if e = .timedOut ∧ l.timeoutPolicy = .silent then (none, [⟨.debug, "no reply to " ++ whom⟩])
    else (Reply.short received (some q) .servFail false, [⟨.info, "SERVFAIL to " ++ whom⟩])

/-- Handles a message from a client: the reply, if there is one, and the lines of the log. -/
def handle (l : Listener) (send : Sender σ) (s : σ) (r : Received) : Option Octets × List LogRecord × Listener × σ :=
  let client := r.client.canonical
  match triage r.octets client with
  | .ignore log => (none, log, l, s)
  | .refuse m rcode => (Reply.short m none rcode false, [], l, s)
  | .forward m q =>
    let arrival : LogRecord := ⟨.debug, "query for " ++ q.toString ++ " from " ++ client.toString⟩
    let (route, routeLog, l, s) := l.routeOf send s q client
    let (first, second) := l.servers route
    let (result, s) := exchange send l.retrySecondary s ⟨r.octets, q, client, .relay⟩ first second
    let (reply, replyLog) := l.conclude r.transport client m q result
    (reply, arrival :: routeLog ++ replyLog, l, s)

end Listener

end DnsRelay
