import DnsRelay.Config

/-!
# The command line

The program has one command, `run`, which takes either a configuration file or the servers themselves. Arguments are
read from left to right. The value of an option stands behind it or is joined to it by an equals sign. A value that
stands behind its option is looked at only when the next argument is read.
-/

namespace DnsRelay

/-- Why a command line is not carried out. Asking for help or for the version counts among these. -/
inductive UsageError where
  | argumentConflict
  | help
  | helpForMissingCommand
  | version
  | invalidCommand
  | invalidValue
  | missingArgument
  | tooManyValues
  | unknownArgument
  | valueValidation
  deriving DecidableEq, Repr

/-- What `run` was asked to do. -/
structure RunArgs where
  config : Option String
  bind : Option Endpoint
  primary : Option Resolver
  secondary : Option Resolver
  probe : Option Endpoint
  verbose : Bool
  deriving DecidableEq, Repr

/-- The options of `run` that take a value. -/
inductive ValueOption where
  | config
  | bind
  | primary
  | secondary
  | probe
  deriving DecidableEq, Repr

namespace CommandLine

/-- An argument by its form. -/
inductive Form where
  | rest
  | long (name : String) (joined : Option String)
  | short (flags : List Char)
  | plain (text : String)
  deriving DecidableEq, Repr

/-- The form of an argument: two dashes alone, a long name, short flags, or anything else. -/
def Form.of (arg : String) : Form :=
  match arg.toList with
  | ['-', '-'] => .rest
  | '-' :: '-' :: cs =>
    let name := cs.takeWhile (· ≠ '=')
    match cs.drop name.length with
    | [] => .long (String.ofList name) none
    | _ :: joined => .long (String.ofList name) (some (String.ofList joined))
  | ['-'] => .plain arg
  | '-' :: flags => .short flags
  | _ => .plain arg

/-- The long names of the options that take a value. -/
def options : List (String × ValueOption) :=
  [("config", .config), ("bind", .bind), ("upstream", .primary), ("secondary", .secondary), ("probe", .probe)]

/-- Fills in a value that was not given before. -/
def fill {α : Type} (present : Option α) (value : Except UsageError α) : Except UsageError (Option α) :=
  if present.isSome then .error .argumentConflict else value.map some

/-- The value of an option that names an endpoint. -/
def endpoint (text : String) : Except UsageError Endpoint :=
  match Endpoint.ofString? text with
  | some e => .ok e
  | none => .error .valueValidation

/-- The value of an option that names a server. -/
def resolver (text : String) : Except UsageError Resolver :=
  (Resolver.ofString? text).mapError fun _ => .valueValidation

/-- The value of an option that names a file. -/
def path (text : String) : Except UsageError String :=
  if text = "" then .error .invalidValue else .ok text

/-- Gives an option its value. -/
def assign (a : RunArgs) (option : ValueOption) (text : String) : Except UsageError RunArgs :=
  match option with
  | .config => (fill a.config (path text)).map fun v => { a with config := v }
  | .bind => (fill a.bind (endpoint text)).map fun v => { a with bind := v }
  | .primary => (fill a.primary (resolver text)).map fun v => { a with primary := v }
  | .secondary => (fill a.secondary (resolver text)).map fun v => { a with secondary := v }
  | .probe => (fill a.probe (endpoint text)).map fun v => { a with probe := v }

/-- Arguments that were read, and the last option with its value if that is not looked at yet. -/
structure Reading where
  args : RunArgs
  last : Option (ValueOption × Option String)
  deriving DecidableEq, Repr

namespace Reading

/-- Nothing was read. -/
def start : Reading :=
  { args := { config := none, bind := none, primary := none, secondary := none, probe := none, verbose := false }
    last := none }

/-- Looks at the value of the last option, which must have one. -/
def settle (r : Reading) : Except UsageError RunArgs :=
  match r.last with
  | none => .ok r.args
  | some (_, none) => .error .invalidValue
  | some (option, some text) => assign r.args option text

/-- Takes in the flag for more of the log. -/
def verbose (r : Reading) : Except UsageError Reading := do
  let args ← r.settle
  if args.verbose then throw .argumentConflict
  return ⟨{ args with verbose := true }, none⟩

/-- Takes in short flags one after another. -/
def flags (r : Reading) : List Char → Except UsageError Reading
  | [] => .ok r
  | c :: cs =>
    if c = 'v' then r.verbose.bind fun r => r.flags cs
    else if c = 'h' then r.settle.bind fun _ => .error .help
    else .error .unknownArgument

/-- Takes in an argument with a long name. -/
def long (r : Reading) (name : String) (joined : Option String) : Except UsageError Reading :=
  match options.lookup name, joined with
  | some option, some text => do
    let args ← r.settle
    return ⟨← assign args option text, none⟩
  | some option, none => do
    return ⟨← r.settle, some (option, none)⟩
  | none, joined =>
    if name = "verbose" ∨ name = "help" then
      if joined.isSome then .error .tooManyValues
      else if name = "verbose" then r.verbose
      else r.settle.bind fun _ => .error .help
    else .error .unknownArgument

/-- Takes in an argument that is neither option nor flag: the value that the last option waits for. -/
def plain (r : Reading) (text : String) : Except UsageError Reading :=
  match r.last with
  | some (option, none) => .ok { r with last := some (option, some text) }
  | _ => .error .unknownArgument

end Reading

/-- Refuses arguments that exclude each other, and wants a file or a primary server. -/
def validate (a : RunArgs) : Except UsageError RunArgs :=
  if a.config.isSome ∧ (a.bind.isSome ∨ a.primary.isSome ∨ a.secondary.isSome ∨ a.probe.isSome) then
    .error .argumentConflict
  else if a.config = none ∧ a.primary = none then .error .missingArgument
  else .ok a

/-- Reads the arguments of `run`. Nothing may stand behind two dashes. -/
def run (r : Reading) : List String → Except UsageError RunArgs
  | [] => r.settle.bind validate
  | arg :: rest =>
    match Form.of arg with
    | .rest => if rest = [] then r.settle.bind validate else .error .unknownArgument
    | .long name joined => (r.long name joined).bind fun r => run r rest
    | .short flags => (r.flags flags).bind fun r => run r rest
    | .plain text => (r.plain text).bind fun r => run r rest

/-- The commands. -/
def commands : List String := ["run", "help"]

/-- Reads the arguments that follow the name of the program. -/
def parse : List String → Except UsageError RunArgs
  | [] => .error .helpForMissingCommand
  | "run" :: rest => run .start rest
  | "help" :: rest =>
    match rest with
    | [] => .error .help
    | [command] => if commands.contains command then .error .help else .error .invalidCommand
    | _ => .error .invalidCommand
  | arg :: rest =>
    match Form.of arg with
    | .rest =>
      match rest with
      | [] => .error .helpForMissingCommand
      | other :: _ => if commands.contains other then .error .unknownArgument else .error .invalidCommand
    | .long name joined =>
      if name = "help" ∨ name = "version" then
        if joined.isSome then .error .tooManyValues else if name = "help" then .error .help else .error .version
      else .error .unknownArgument
    | .short flags =>
      match flags with
      | 'h' :: _ => .error .help
      | 'V' :: _ => .error .version
      | _ => .error .unknownArgument
    | .plain _ => .error .invalidCommand

end CommandLine

/-- The configuration that the arguments give without a file. -/
def RunArgs.config? (a : RunArgs) : Except ConfigError Config :=
  Config.ofServers? a.bind a.primary a.secondary a.probe

end DnsRelay
