import DnsRelay.Blocklist
import DnsRelay.Forward.Resolver
import DnsRelay.Listener.Basic
import DnsRelay.Toml.Document
import DnsRelay.Validation

/-!
# Configuration

What the relay is run with: read from a document of settings, or given on the command line. Each part of the document is
a table whose keys are all known; the values of a table may also be written in order as an array. What is left out has a
default, but the primary server has none.
-/

namespace DnsRelay

/-- Why there is no configuration to run with. -/
inductive ConfigError where
  | unreadable
  | malformed
  | noServer
  | zeroTimeout
  | zeroSweepInterval
  | zeroMaxPending
  | zeroRouteTable
  deriving DecidableEq, Repr

/-- The wording of a configuration error. -/
def ConfigError.message : ConfigError → String
  | .unreadable => "failed to read the configuration file"
  | .malformed => "failed to parse the configuration file"
  | .noServer => "no upstream server was given"
  | .zeroTimeout => "forwarding.timeout_ms must be positive"
  | .zeroSweepInterval => "forwarding.sweep_interval_ms must be positive"
  | .zeroMaxPending => "forwarding.max_pending must be positive"
  | .zeroRouteTable => "probe.route_table_size must be positive"

/-- How queries are forwarded. Times are in milliseconds. -/
structure Forwarding where
  timeout : Nat
  sweepInterval : Nat
  maxPending : Nat
  retrySecondary : Bool
  timeoutPolicy : TimeoutPolicy
  caseRandomization : Bool
  deriving DecidableEq, Repr

/-- Where probes go, and how many names are remembered. -/
structure ProbeConfig where
  server : Endpoint
  routeTableSize : Nat
  deriving DecidableEq, Repr

/-- What the relay is run with. -/
structure Config where
  bind : Endpoint
  forwarding : Forwarding
  primary : Resolver
  secondary : Option Resolver
  probe : Option ProbeConfig
  maxAnswers : Nat
  blocklist : List Network
  deriving DecidableEq, Repr

namespace Toml.Value

/-- The values of a table whose keys are all among `keys`, one for each of these, or as many of them as an array holds. -/
def fields? (keys : List String) : Value → Option (List (Option Value))
  | .table _ entries => if entries.all fun e => keys.contains e.1 then some (keys.map fun k => entries.lookup k) else none
  | .array items =>
    if items.length ≤ keys.length then some (items.map some ++ List.replicate (keys.length - items.length) none) else none
  | _ => none

/-- The text of a string. -/
def string? : Value → Option String
  | .string text => some text
  | _ => none

/-- The value of an integer that is not negative. -/
def natural? : Value → Option Nat
  | .integer n => if 0 ≤ n then some n.toNat else none
  | _ => none

/-- The value of a boolean. -/
def boolean? : Value → Option Bool
  | .boolean b => some b
  | _ => none

/-- One of several choices, given by its name or by an empty table under its name. -/
def choice? {α : Type} (choices : List (String × α)) : Value → Option α
  | .string text => choices.lookup text
  | .table .braces [(text, .table .braces [])] => choices.lookup text
  | _ => none

/-- The endpoint that a string names. -/
def endpoint? (v : Value) : Option Endpoint :=
  v.string?.bind Endpoint.ofString?

/-- The network that a string names. -/
def network? (v : Value) : Option Network :=
  v.string?.bind Network.ofString?

/-- Reads a setting that may be left out. -/
def orDefault {α : Type} (read : Value → Option α) (default : α) : Option Value → Option α
  | none => some default
  | some v => read v

end Toml.Value

namespace Forwarding

/-- How queries are forwarded if nothing is said. -/
def standard : Forwarding :=
  { timeout := 2000, sweepInterval := 250, maxPending := 1024, retrySecondary := true, timeoutPolicy := .servFail,
    caseRandomization := false }

open Toml.Value

/-- Reads how queries are forwarded. -/
def ofValue? (v : Toml.Value) : Option Forwarding := do
  let fields ← v.fields? ["timeout_ms", "sweep_interval_ms", "max_pending", "retry_secondary", "timeout_policy",
    "case_randomization"]
  match fields with
  | [timeout, interval, pending, retry, policy, randomization] =>
    return {
      timeout := ← orDefault natural? standard.timeout timeout
      sweepInterval := ← orDefault natural? standard.sweepInterval interval
      maxPending := ← orDefault natural? standard.maxPending pending
      retrySecondary := ← orDefault boolean? standard.retrySecondary retry
      timeoutPolicy := ←
        orDefault (choice? [("servfail", .servFail), ("silent", .silent)]) standard.timeoutPolicy policy
      caseRandomization := ← orDefault boolean? standard.caseRandomization randomization }
  | _ => none

end Forwarding

namespace Config

open Toml.Value

/-- Where queries are taken in if nothing is said. -/
def defaultBind : Endpoint := .v4 0x7f000001#32 53

/-- Reads a server: its address and how it is reached. -/
def resolver? (v : Toml.Value) : Option Resolver := do
  match ← v.fields? ["address", "transport"] with
  | [some address, transport] =>
    let endpoint ← endpoint? address
    return ⟨endpoint, ← orDefault (choice? [("udp", .udp), ("tcp", .tcp)]) .udp transport⟩
  | _ => none

/-- Reads the primary and the secondary server. The second may be left out of a table, but not of an array. -/
def resolvers? (v : Toml.Value) : Option (Resolver × Option Resolver) := do
  match v, ← v.fields? ["primary", "secondary"] with
  | .array _, [some primary, some secondary] => return (← resolver? primary, some (← resolver? secondary))
  | .table _ _, [some primary, secondary] => return (← resolver? primary, ← secondary.mapM resolver?)
  | _, _ => none

/-- Reads where probes go. -/
def probe? (v : Toml.Value) : Option ProbeConfig := do
  match ← v.fields? ["address", "route_table_size"] with
  | [some address, size] =>
    return ⟨← endpoint? address, ← orDefault natural? RouteTable.defaultCapacity size⟩
  | _ => none

/-- Reads the entries of a blocklist. -/
def blocklist? : Toml.Value → Option (List Network)
  | .array items => items.mapM network?
  | _ => none

/-- Reads the bound on answers and the blocklist. -/
def validation? (v : Toml.Value) : Option (Nat × List Network) := do
  match ← v.fields? ["max_answers", "blocklist"] with
  | [maxAnswers, blocklist] =>
    return (← orDefault natural? Validator.defaultMaxAnswers maxAnswers, ← orDefault blocklist? [] blocklist)
  | _ => none

/-- Reads a configuration from the entries of a document. -/
def ofEntries? (entries : Toml.Entries) : Option Config := do
  match ← fields? ["bind", "forwarding", "upstreams", "probe", "validation"] (.table .headed entries) with
  | [bind, forwarding, some resolvers, probe, validation] =>
    let bind ← orDefault endpoint? defaultBind bind
    let forwarding ← orDefault Forwarding.ofValue? Forwarding.standard forwarding
    let (primary, secondary) ← resolvers? resolvers
    let probe ← probe.mapM probe?
    let (maxAnswers, blocklist) ← orDefault validation? (Validator.defaultMaxAnswers, []) validation
    return { bind, forwarding, primary, secondary, probe, maxAnswers, blocklist }
  | _ => none

/-- Refuses values that can be read but not be run with. -/
def check (c : Config) : Except ConfigError Config :=
  if c.forwarding.timeout = 0 then .error .zeroTimeout
  else if c.forwarding.sweepInterval = 0 then .error .zeroSweepInterval
  else if c.forwarding.maxPending = 0 then .error .zeroMaxPending
  else if c.probe.any (·.routeTableSize = 0) then .error .zeroRouteTable
  else .ok c

/-- Reads a configuration from the text of a document. -/
def ofText? (text : String) : Except ConfigError Config :=
  match (Toml.Document.ofText? text).bind ofEntries? with
  | some c => c.check
  | none => .error .malformed

/-- Reads a configuration from the octets of a file, or from nothing if the file cannot be read. -/
def ofFile? (file : Option Octets) : Except ConfigError Config :=
  match file with
  | none => .error .unreadable
  | some octets =>
    match String.fromUTF8? ⟨octets⟩ with
    | some text => ofText? text
    | none => .error .malformed

/-- The configuration that a command line gives; it has the defaults for all that cannot be said there. -/
def ofServers? (bind : Option Endpoint) (primary secondary : Option Resolver) (probe : Option Endpoint) :
    Except ConfigError Config :=
  match primary with
  | none => .error .noServer
  | some primary =>
    .ok {
      bind := bind.getD defaultBind
      forwarding := .standard
      primary
      secondary
      probe := probe.map fun server => ⟨server, RouteTable.defaultCapacity⟩
      maxAnswers := Validator.defaultMaxAnswers
      blocklist := [] }

/-- The validator of a configuration, which has a blocklist only if there is an entry. -/
def validator (c : Config) : Validator :=
  ⟨c.maxAnswers, if c.blocklist.isEmpty then none else some (Blocklist.blocks ⟨c.blocklist⟩)⟩

/-- The settings of the forwarder. -/
def forwardConfig (c : Config) : ForwardConfig :=
  ⟨c.forwarding.timeout, c.forwarding.maxPending, c.forwarding.caseRandomization⟩

/-- The listener of a configuration, which has learned nothing yet. -/
def listener (c : Config) : Listener :=
  { primary := c.primary
    secondary := c.secondary
    probing := c.probe.map fun p => ⟨⟨p.server, .udp⟩, .empty p.routeTableSize⟩
    timeoutPolicy := c.forwarding.timeoutPolicy
    retrySecondary := c.forwarding.retrySecondary }

/-- The text of a policy in a summary. -/
def policyText : TimeoutPolicy → String
  | .servFail => "SERVFAIL on timeout"
  | .silent => "silent on timeout"

/-- What is logged of a configuration once it is loaded. -/
def summary (c : Config) : LogRecord :=
  let secondary := match c.secondary with
    | some r => r.toString
    | none => "none"
  let probe := match c.probe with
    | some p => p.server.toString ++ " (remembering " ++ Nat.repr p.routeTableSize ++ " names)"
    | none => "disabled"
  ⟨.debug, "\n".intercalate [
    "Configuration loaded:",
    "Bind address:   " ++ c.bind.toString,
    "Primary:        " ++ c.primary.toString,
    "Secondary:      " ++ secondary,
    "Probe:          " ++ probe,
    "Timeout:        " ++ Nat.repr c.forwarding.timeout ++ " ms (" ++ policyText c.forwarding.timeoutPolicy ++ ")",
    "Max pending:    " ++ Nat.repr c.forwarding.maxPending,
    "Max answers:    " ++ Nat.repr c.maxAnswers,
    "Blocklist:      " ++ Nat.repr c.blocklist.length ++ " entries"]⟩

end Config

end DnsRelay
