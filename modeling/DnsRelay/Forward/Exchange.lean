import DnsRelay.Forward.Basic

/-!
# Exchanges

An exchange is a query and what came of it. `Forwarder.attempt` makes one with a single server under given conditions:
the draws, the fate of what is sent, and the events that the forwarder meets while it waits. `exchange` adds the second
server that is asked when the first one fails.
-/

namespace DnsRelay

/-- What a forwarder can meet. -/
inductive Event where
  | datagram (octets : Octets) (source : Endpoint)
  | connectionReply (handle : Handle) (octets : Octets)
  | connectionFailed (handle : Handle) (failure : LinkFailure)
  | sweep (now : Nat)
  deriving DecidableEq, Repr

namespace Forwarder

/-- Takes in an event. -/
def meet (f : Forwarder) : Event → Forwarder
  | .datagram octets source => (f.receive octets source).2
  | .connectionReply h octets => (f.receive octets h.server).2
  | .connectionFailed h failure => f.connectionFailed h failure
  | .sweep now => (f.sweep now).2

end Forwarder

/-- The conditions that one attempt meets: the time and the draws, why its datagram cannot be sent, if so, and the
events while it waits, which may depend on what was sent. -/
structure Conditions where
  now : Nat
  draws : Draws
  failure : Option LinkFailure
  events : Forwarder.Sent → List Event

namespace Conditions

/-- What a query over a connection meets: one that is too long for the length in front of it is never sent. -/
def eventsFor (c : Conditions) (transport : Transport) (sent : Forwarder.Sent) : List Event :=
  if transport = .tcp ∧ maxMessageSize < sent.octets.size then [.connectionFailed sent.handle .invalidInput]
  else c.events sent

/-- The conditions on a host that no link leads out of. Sending to service zero is refused before that is noticed. -/
def offline (now : Nat) (draws : Draws) (resolver : Resolver) : Conditions :=
  let failure := if resolver.endpoint.number = 0 then .invalidInput else .networkUnreachable
  { now, draws, failure := some failure, events := fun sent => [.connectionFailed sent.handle .networkUnreachable] }

end Conditions

/-- Sends a query to one server and waits for what comes of it. -/
def Forwarder.attempt (f : Forwarder) (c : Conditions) (resolver : Resolver) (out : Outbound) :
    Except ForwardError Octets × Forwarder :=
  match f.send c.now c.draws c.failure out resolver with
  | (.error e, f) => (.error e, f)
  | (.ok sent, f) => ((c.eventsFor resolver.transport sent).foldl Forwarder.meet f).wait sent.handle

/-- A way to send queries, with a state that it passes on. -/
abbrev Sender (σ : Type) := σ → Resolver → Outbound → Except ForwardError Octets × σ

/-- Asks one server and, if that fails in a way in which another one might not and `retry` is set, the second one. -/
def exchange {σ : Type} (send : Sender σ) (retry : Bool) (s : σ) (out : Outbound) (first : Resolver)
    (second : Option Resolver) : Except ForwardError Octets × σ :=
  match send s first out, second with
  | (.error e, s), some other => if e.isRetryable && retry then send s other out else (.error e, s)
  | (result, s), _ => (result, s)

end DnsRelay
