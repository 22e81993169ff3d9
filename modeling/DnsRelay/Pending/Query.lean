import DnsRelay.Address.Basic
import DnsRelay.Question

/-!
# Pending queries

A query that was sent to a server and waits for its response.
-/

namespace DnsRelay

/-- Why a query is sent: on behalf of a client, or to find out whether answers for a name are forged on the way. -/
inductive QueryKind where
  | relay
  | probe
  deriving DecidableEq, Repr

/-- A query as it was sent, with the time of sending in milliseconds. -/
structure PendingQuery where
  id : UInt16
  question : Question
  client : Endpoint
  server : Endpoint
  sentAt : Nat
  kind : QueryKind
  deriving DecidableEq, Repr

end DnsRelay
