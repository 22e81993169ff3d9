import DnsRelay.Forward.Resolver
import DnsRelay.Forward.Stats
import DnsRelay.Message.Patch
import DnsRelay.Pending.Table
import DnsRelay.Validation

/-!
# Forwarding queries

A forwarder sends a query under an id of its own, keeps it in the table of pending queries, and holds every message that
comes back against that table. Each query sent has a handle, and for each handle there is a mailbox into which the one
accepted response is put. Random draws, times and the fate of what is sent are arguments, so that a run of a forwarder
is a plain function of what it meets. When it sweeps is up to whoever runs it, and what it logs is left out.
-/

namespace DnsRelay

/-- Why the system could not send a message or keep a connection. Any failure that is not named here is an `other` one, with
the wording that the system has for it. -/
inductive LinkFailure where
  | invalidInput
  | connectionRefused
  | unexpectedEnd
  | networkUnreachable
  | addressNotAvailable
  | other (wording : String)
  deriving DecidableEq, Repr

/-- The wording of a link failure. -/
def LinkFailure.message : LinkFailure → String
  | .invalidInput => "invalid input parameter"
  | .connectionRefused => "connection refused"
  | .unexpectedEnd => "unexpected end of file"
  | .networkUnreachable => "network unreachable"
  | .addressNotAvailable => "address not available"
  | .other wording => wording

/-- Why no valid response was obtained for a query. -/
inductive ForwardError where
  | queueFull
  | noFreeId
  | unreachable (failure : LinkFailure)
  | timedOut
  deriving DecidableEq, Repr

namespace ForwardError

/-- The wording of a forward error. -/
def message : ForwardError → String
  | .queueFull => "query queue full"
  | .noFreeId => "no free transaction ID"
  | .unreachable e => "upstream unreachable: " ++ e.message
  | .timedOut => "timed out"

/-- Whether another server might do better. -/
def isRetryable : ForwardError → Bool
  | .unreachable _ | .timedOut => true
  | .queueFull | .noFreeId => false

end ForwardError

/-- The settings of a forwarder; the timeout is in milliseconds. -/
structure ForwardConfig where
  timeout : Nat
  maxPending : Nat
  caseRandomization : Bool
  deriving DecidableEq, Repr

/-- A transaction id for a query that is sent: any number but zero. -/
abbrev TransactionId := { id : UInt16 // id ≠ 0 }

/-- The random choices made for one query: the ids to try, and the letters of the name whose case flips. -/
structure Draws where
  id : Nat → TransactionId
  flip : Nat → Bool

/-- A query to be sent, and its only question. -/
structure Outbound where
  message : Octets
  question : Question
  client : Endpoint
  kind : QueryKind
  deriving DecidableEq, Repr

/-- A query in flight: the registration, the id it went out under, its mailbox and the server asked. -/
structure Handle where
  token : Token
  id : UInt16
  mailbox : Nat
  server : Endpoint
  deriving DecidableEq, Repr

/-- What has arrived for a handle. A closed mailbox is one into which nothing can come any more. -/
inductive Mailbox where
  | waiting
  | delivered (octets : Octets)
  | failed (error : ForwardError)
  | closed
  deriving DecidableEq, Repr

/-- What became of a message that claims to be a response. -/
inductive Outcome where
  | delivered
  | dropped (reason : RejectReason)
  | unmatched
  | malformed
  deriving DecidableEq, Repr

/-- The state of a forwarder. A pending query carries the number of its mailbox. -/
structure Forwarder where
  config : ForwardConfig
  validator : Validator
  table : PendingTable Nat
  stats : Stats
  mailboxes : Array Mailbox

namespace Forwarder

/-- A forwarder that has sent nothing yet. -/
def start (config : ForwardConfig) (validator : Validator) : Forwarder :=
  { config, validator, table := .empty config.maxPending, stats := .zero, mailboxes := #[] }

/-- How many queries wait for a response. -/
def pending (f : Forwarder) : Nat :=
  f.table.size

/-- How many ids are tried before a query is given up. -/
def maxIdAttempts : Nat := 16

/-- The octets and the question to send. The case of the name is randomized, if that is wanted, in both or in neither. -/
def randomizeCase (wanted : Bool) (flip : Nat → Bool) (out : Outbound) : Octets × Question :=
  if wanted then
    let name := (out.question.qname.withCase flip).2
    match out.message.overwriteName? name with
    | some octets => (octets, { out.question with qname := name })
    | none => (out.message, out.question)
  else (out.message, out.question)

/-- Registers a query under the first of up to `attempts` drawn ids that is free at its server. -/
def registerFresh (f : Forwarder) (query : UInt16 → PendingQuery) (id : Nat → TransactionId) :
    (attempts : Nat) → (next : Nat) → Except ForwardError (Token × UInt16 × PendingTable Nat)
  | 0, _ => .error .noFreeId
  | attempts + 1, next =>
    match f.table.register (query (id next).val) f.mailboxes.size with
    | .ok (token, table) => .ok (token, (id next).val, table)
    | .error .duplicateId => registerFresh f query id attempts (next + 1)
    | .error .full => .error .queueFull

/-- A query that was registered, and the octets to send for it. -/
structure Sent where
  handle : Handle
  octets : Octets
  deriving DecidableEq, Repr

/-- Registers a query for a server and makes the octets to send. -/
def prepare (f : Forwarder) (now : Nat) (draws : Draws) (out : Outbound) (server : Endpoint) :
    Except ForwardError (Sent × Forwarder) := do
  let server := server.canonical
  let (octets, question) := randomizeCase f.config.caseRandomization draws.flip out
  let query (id : UInt16) : PendingQuery := ⟨id, question, out.client, server, now, out.kind⟩
  let (token, id, table) ← registerFresh f query draws.id maxIdAttempts 0
  return (⟨⟨token, id, f.mailboxes.size, server⟩, octets.setId id⟩,
    { f with table, mailboxes := f.mailboxes.push .waiting })

/-- Puts something into a mailbox. -/
def post (f : Forwarder) (mailbox : Nat) (contents : Mailbox) : Forwarder :=
  { f with mailboxes := f.mailboxes.setIfInBounds mailbox contents }

/-- Gives up a handle: its query, if still pending, is taken out of the table. -/
def cancel (f : Forwarder) (h : Handle) : Forwarder :=
  match f.table.clear h.token with
  | some ((_, mailbox), table) => { f with table }.post mailbox .closed
  | none => f

/-- Counts a failure to reach a server. -/
def countUnreachable (f : Forwarder) : Forwarder :=
  { f with stats := { f.stats with unreachable := f.stats.unreachable + 1 } }

/-- Sends a query. By datagram the sending itself may fail, as `failure` tells; then nothing stays pending. A query over
a connection is in flight at once, and a failure arrives later (`connectionFailed`). -/
def send (f : Forwarder) (now : Nat) (draws : Draws) (failure : Option LinkFailure) (out : Outbound)
    (resolver : Resolver) : Except ForwardError Sent × Forwarder :=
  match f.prepare now draws out resolver.endpoint with
  | .error e => (.error e, f)
  | .ok (sent, f) =>
    match resolver.transport, failure with
    | .udp, some failure => (.error (.unreachable failure), f.countUnreachable.cancel sent.handle)
    | _, _ => (.ok sent, f)

/-- Takes in a message that came from `source`. An accepted response goes into the mailbox of its query, which is then
no longer pending. -/
def receive (f : Forwarder) (octets : Octets) (source : Endpoint) : Outcome × Forwarder :=
  let stats := f.stats
  match Response.parse? octets source with
  | .error _ => (.malformed, { f with stats := { stats with malformed := stats.malformed + 1 } })
  | .ok response =>
    let unmatched : Outcome × Forwarder :=
      (.unmatched, { f with stats := { stats with unmatched := stats.unmatched + 1 } })
    match f.table.lookup response.id source with
    | none => unmatched
    | some (token, query) =>
      match f.validator.validate response query with
      | .error reason => (.dropped reason, { f with stats := { stats with dropped := stats.dropped + 1 } })
      | .ok () =>
        match f.table.clear token with
        | none => unmatched
        | some ((_, mailbox), table) =>
          (.delivered, { f with table, stats := { stats with delivered := stats.delivered + 1 } }.post mailbox
            (.delivered octets))

/-- Takes out the queries that have waited for the timeout by `now`, and gives their number. -/
def sweep (f : Forwarder) (now : Nat) : Nat × Forwarder :=
  let (gone, table) := f.table.purge now f.config.timeout
  let mailboxes := gone.foldl (fun boxes entry => boxes.setIfInBounds entry.2 .closed) f.mailboxes
  (gone.length, { f with table, mailboxes, stats := { f.stats with timedOut := f.stats.timedOut + gone.length } })

/-- Takes in the failure of the connection of a query, which ends the query if it is still pending. -/
def connectionFailed (f : Forwarder) (h : Handle) (failure : LinkFailure) : Forwarder :=
  match f.table.clear h.token with
  | some ((_, mailbox), table) => { f with table }.countUnreachable.post mailbox (.failed (.unreachable failure))
  | none => f

/-- What has come of a handle so far; nothing while its query is pending. -/
def result? (f : Forwarder) (h : Handle) : Option (Except ForwardError Octets) :=
  match f.mailboxes[h.mailbox]? with
  | some (.delivered octets) => some (.ok octets)
  | some (.failed e) => some (.error e)
  | some .closed => some (.error .timedOut)
  | some .waiting | none => none

/-- Gives a query up that nothing has ended in twice the timeout. -/
def expire (f : Forwarder) (h : Handle) : Forwarder :=
  match f.table.clear h.token with
  | some ((_, mailbox), table) =>
    { f with table, stats := { f.stats with timedOut := f.stats.timedOut + 1 } }.post mailbox .closed
  | none => f

/-- Waits for what comes of a handle and gives the handle up. -/
def wait (f : Forwarder) (h : Handle) : Except ForwardError Octets × Forwarder :=
  match f.result? h with
  | some result => (result, f.cancel h)
  | none => (.error .timedOut, f.expire h)

end Forwarder

end DnsRelay
