import FirmwareLane.Console
import FirmwareLane.Worker.Service

/-!
# The command line of a worker

The command `rpc` answers one request from standard input on standard output.  The command `serve`
would listen on a network; the machine of this library has none, so it fails at its start.  What a
worker logs is not part of what it prints.
-/

set_option autoImplicit false
namespace FirmwareLane
namespace WorkerCommand

open Text (Bytes)

/-- The usage of the command line. -/
def usage : String :=
  "Usage:\n  rvi-worker serve [--config PATH] [--listen ADDR]\n  rvi-worker rpc [--config PATH]"

/-- The arguments of a worker. -/
structure Arguments where
  command : String
  config : Option String
  listen : Option String
  deriving DecidableEq, Repr

/-- Why arguments make no sense. -/
inductive Fault where
  | missingCommand
  | missingPath
  | missingAddress
  | unexpected (argument : String)
  | unknownCommand (command : String)
  deriving DecidableEq, Repr

/-- The wording of a fault. -/
def Fault.message : Fault → String
  | .missingCommand => "missing command"
  | .missingPath => "--config needs a path"
  | .missingAddress => "--listen needs an address"
  | .unexpected argument => "unexpected argument: " ++ argument
  | .unknownCommand command => "unknown command: " ++ command

/-- The arguments after more of them are read. -/
def readOptions (a : Arguments) : List String → Except Fault Arguments
  | [] => .ok a
  | "--config" :: path :: rest => readOptions { a with config := some path } rest
  | "--config" :: [] => .error .missingPath
  | option :: rest =>
    if option = "--listen" ∧ a.command = "serve" then
      match rest with
      | address :: rest => readOptions { a with listen := some address } rest
      | [] => .error .missingAddress
    else .error (.unexpected option)

/-- The arguments in a list of words. -/
def read : List String → Except Fault Arguments
  | [] => .error .missingCommand
  | command :: rest => readOptions ⟨command, none, none⟩ rest

/-- What is printed about arguments that make no sense. -/
def refuse (fault : Fault) : Console :=
  .failed 2 ("error: " ++ fault.message ++ "\n" ++ usage ++ "\n")

/-- The configuration that arguments ask for. -/
def configuration (a : Arguments) (fs : Files) : Except Configuration.Fault WorkerConfig := do
  let config ← match a.config with
    | some path => WorkerConfig.load fs path
    | none => .ok .default
  return { config with listen := a.listen.getD config.listen }

/-- The exit code of a command that fails for a reason that is only logged. -/
def failureCode : Nat := 1

/-- The exit code of a command that breaks off. -/
def crashCode : Nat := 101

/-- Carries out the command of arguments. -/
def carryOut (m : Machine) (a : Arguments) (config : WorkerConfig) (stdin : Bytes) (host : Host) :
    Console × Host :=
  if a.command = "serve" then (.failed failureCode "", host)
  else if a.command = "rpc" then
    match Service.respond m config stdin none host with
    | (.ok response, host) => (.done (Service.line response), host)
    | (.error .clockOverflow, host) =>
      (.failed crashCode "overflow when adding duration to instant\n", host)
  else (refuse (.unknownCommand a.command), host)

/-- Carries out a command line. -/
def run (m : Machine) (words : List String) (stdin : Bytes) (host : Host) : Console × Host :=
  match read words with
  | .error fault => (refuse fault, host)
  | .ok a =>
    match configuration a host.files with
    | .error _ => (.failed failureCode "", host)
    | .ok config => carryOut m a config stdin host

end WorkerCommand
end FirmwareLane
