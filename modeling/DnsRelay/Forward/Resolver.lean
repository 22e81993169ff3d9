import DnsRelay.Address.Text

/-!
# Resolvers

The servers that queries are forwarded to: where they are, and whether they are asked by datagram or over a connection.
-/

namespace DnsRelay

/-- How a message travels. -/
inductive Transport where
  | udp
  | tcp
  deriving DecidableEq, Repr

/-- The text of a transport. -/
def Transport.toString : Transport → String
  | .udp => "udp"
  | .tcp => "tcp"

instance : ToString Transport := ⟨Transport.toString⟩

/-- A server that queries are forwarded to. -/
structure Resolver where
  endpoint : Endpoint
  transport : Transport
  deriving DecidableEq, Repr

/-- Why a text is not a resolver. -/
inductive ResolverError where
  | invalidAddress
  | unknownTransport
  deriving DecidableEq, Repr

/-- The wording of a resolver error. -/
def ResolverError.message : ResolverError → String
  | .invalidAddress => "invalid IP:PORT address"
  | .unknownTransport => "transport must be udp or tcp"

namespace Resolver

/-- A text split at its last slash. -/
def splitLastSlash? (cs : List Char) : Option (List Char × List Char) :=
  let after := cs.reverse.takeWhile (· ≠ '/')
  match cs.reverse.drop after.length with
  | [] => none
  | _ :: before => some (before.reverse, after.reverse)

/-- The endpoint in a text and the transport behind its last slash, which is UDP if there is no slash. -/
def split (text : String) : Except ResolverError (String × Transport) :=
  match splitLastSlash? text.toList with
  | none => .ok (text, .udp)
  | some (before, after) =>
    if after = "udp".toList then .ok (String.ofList before, .udp)
    else if after = "tcp".toList then .ok (String.ofList before, .tcp)
    else .error .unknownTransport

/-- Reads a resolver from its text. -/
def ofString? (text : String) : Except ResolverError Resolver := do
  let (address, transport) ← split text
  match Endpoint.ofString? address with
  | some endpoint => return ⟨endpoint, transport⟩
  | none => throw .invalidAddress

/-- The text of a resolver. -/
def toString (r : Resolver) : String :=
  r.endpoint.toString ++ "/" ++ r.transport.toString

instance : ToString Resolver := ⟨Resolver.toString⟩

end Resolver

end DnsRelay
