import FirmwareLane.Configuration
import FirmwareLane.Message.Envelope
import FirmwareLane.Message.Payload
import FirmwareLane.Transfer.Basic

/-!
# Faults of a client

Why a request does not get the answer that was hoped for, from a local mistake to a build that
failed on the worker.  Every fault is of a kind, and the kind is the exit code of the command line.
-/

set_option autoImplicit false
namespace FirmwareLane

/-! ## Transports -/

/-- Why no response came from a worker. -/
inductive TransportFault where
  | connectionFailed (reason : String)
  | connectionTimeout
  /-- Sending or receiving failed; the bytes that came may be no text. -/
  | interrupted (garbled : Bool) (reason : String)
  /-- What came is no response. -/
  | undecodable (fault : Json.Fault)
  /-- What came cannot be an answer. -/
  | senseless (reason : String)
  deriving DecidableEq, Repr

namespace TransportFault

/-- The wording of a fault. -/
def message : TransportFault → String
  | connectionFailed reason => "Connection failed: " ++ reason
  | connectionTimeout => "Connection timeout"
  | interrupted _ reason => "I/O error: " ++ reason
  | undecodable fault => "JSON serialization error: " ++ fault.message
  | senseless reason => "Protocol error: " ++ reason

/-- Whether the worker was not reached, and not just answered something useless. -/
def isUnreachable : TransportFault → Bool
  | connectionFailed _ => true
  | connectionTimeout => true
  | interrupted garbled _ => !garbled
  | undecodable _ => false
  | senseless _ => false

end TransportFault

/-! ## Clients -/

/-- The kinds of faults. -/
inductive FailureKind where
  /-- A mistake on this side. -/
  | usage
  | unreachable
  /-- The answer is useless. -/
  | protocol
  /-- The worker refused. -/
  | rejected
  /-- An operation failed. -/
  | execution
  /-- The source text was refused. -/
  | assembly
  deriving DecidableEq, Repr

/-- The exit code for faults of a kind. -/
def FailureKind.exitCode : FailureKind → Nat
  | usage => 2
  | unreachable => 20
  | protocol => 21
  | rejected => 30
  | execution => 40
  | assembly => 41

/-- Why a request did not get its answer. -/
inductive ClientFault where
  | unreachable (endpoint : String) (fault : TransportFault)
  /-- An operation failed; the response says what was done up to then. -/
  | executionFailed (diagnostics : String) (response : RunResponse)
  | malformedAssembly (line : Nat) (message : String)
  | rejected (code : ErrorCode) (message : String)
  | protocol (message : String)
  | invalidRequest (message : String)
  | transfer (fault : Transfer.Fault)
  | configuration (fault : Configuration.Fault)

namespace ClientFault

/-- The kind of a fault. -/
def kind : ClientFault → FailureKind
  | unreachable _ _ => .unreachable
  | executionFailed _ _ => .execution
  | malformedAssembly _ _ => .assembly
  | rejected _ _ => .rejected
  | protocol _ => .protocol
  | invalidRequest _ => .usage
  | transfer _ => .usage
  | configuration _ => .usage

/-- The exit code for a fault. -/
def exitCode (f : ClientFault) : Nat := f.kind.exitCode

/-- The wording of a fault. -/
def message : ClientFault → String
  | unreachable endpoint fault => "endpoint " ++ endpoint ++ " unreachable: " ++ fault.message
  | executionFailed diagnostics _ => "remote execution failed: " ++ diagnostics
  | malformedAssembly line message =>
    "malformed assembly at line " ++ Text.Numeral.decimal line ++ ": " ++ message
  | rejected code message => "worker rejected request: " ++ code.name ++ ": " ++ message
  | protocol message => "protocol error: " ++ message
  | invalidRequest message => "invalid request: " ++ message
  | transfer fault => fault.message
  | configuration fault => fault.message

/-- The response that a fault carries. -/
def response? : ClientFault → Option RunResponse
  | executionFailed _ response => some response
  | _ => none

/-- The fault of an error that a worker reported. -/
def ofRemote (e : RemoteError) : ClientFault :=
  match e.code with
  | .malformedAssembly =>
    .malformedAssembly ((e.naturalOf? "line").getD 0) ((e.textOf? "message").getD e.message)
  | code => .rejected code e.message

end ClientFault
end FirmwareLane
