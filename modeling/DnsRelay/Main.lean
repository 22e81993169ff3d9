import DnsRelay.CommandLine
import DnsRelay.Connection

/-!
# The program

Loads the configuration and serves one connection, whose two directions are standard input and standard output. No link
leads out of the program, so every query that has to be forwarded meets the conditions of an offline host.
-/

namespace DnsRelay.Main

/-- How the program is called. -/
def usage : String :=
  "Usage: run --config <FILE>\n" ++
  "       run --upstream <IP:PORT[/udp|/tcp]> [--secondary <IP:PORT[/udp|/tcp]>] [--probe <IP:PORT>] [--bind <IP:PORT>]"

/-- Draws without chance: the ids in order, and no flips. -/
def draws : Draws where
  id i := if h : UInt16.ofNat (i + 1) ≠ 0 then ⟨UInt16.ofNat (i + 1), h⟩ else ⟨1, by decide⟩
  flip _ := false

/-- How queries are sent without a link. -/
def sender : Sender Forwarder :=
  fun f resolver out => f.attempt (.offline 0 draws resolver) resolver out

/-- Reads what is left of a stream, at most a buffer at a time. -/
partial def chunks (input : IO.FS.Stream) : IO (List (List UInt8)) := do
  let chunk ← input.read (USize.ofNat Connection.bufferSize)
  if chunk.isEmpty then return []
  return chunk.toList :: (← chunks input)

/-- Loads what the arguments tell to run with. -/
def load (a : RunArgs) : IO (Except ConfigError Config) := do
  match a.config with
  | none => return a.config?
  | some path =>
    try
      let file ← IO.FS.readBinFile path
      return Config.ofFile? (some file.data)
    catch _ => return Config.ofFile? none

/-- Serves the connection on standard input and output. -/
def serve (a : RunArgs) (c : Config) : IO Unit := do
  if a.verbose then IO.eprintln c.summary.toString
  let stream ← chunks (← IO.getStdin)
  let start := (c.listener, Forwarder.start c.forwardConfig c.validator)
  let (effects, _) := Connection.serve (.ofListener sender c.bind) start .empty (.ofPieces stream)
  let output ← IO.getStdout
  output.write ⟨(Connection.written effects).toArray⟩
  output.flush

/-- What the program says and how it ends when a command line is not carried out. -/
def refuse : UsageError → IO UInt32
  | .help | .version => do
    IO.println usage
    return 0
  | _ => do
    IO.eprintln usage
    return 2

/-- Runs the program with the arguments behind its name. -/
def run (args : List String) : IO UInt32 := do
  match CommandLine.parse args with
  | .error e => refuse e
  | .ok a =>
    match ← load a with
    | .error e =>
      IO.eprintln ("Failed to run:\n[1] failed to load the configuration\n[2] " ++ e.message ++
        "\nExiting with failure.")
      return 1
    | .ok c =>
      serve a c
      return 0

end DnsRelay.Main

/-- Runs the program. -/
def main (args : List String) : IO UInt32 :=
  DnsRelay.Main.run args
