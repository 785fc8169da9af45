import FirmwareLane.Configuration

/-!
# The configuration of a worker

Which versions of the protocol it serves, where it listens and puts its sandboxes, and the limits
of time and size.
-/

set_option autoImplicit false
namespace FirmwareLane

open Json (Wire)

/-- The configuration of a worker. -/
structure WorkerConfig where
  protocolMin : Int
  protocolMax : Int
  /-- The address to listen at. -/
  listen : String
  /-- The directory for sandboxes. -/
  workRoot : String
  /-- How long a command may run. -/
  operationTimeoutSeconds : Nat
  /-- How long a connection may be silent. -/
  ioTimeoutSeconds : Nat
  /-- Sandboxes stay when the request is answered. -/
  keepSandboxes : Bool
  /-- The greatest number of bytes of a request. -/
  maxRequestBytes : Nat
  deriving DecidableEq, Repr

namespace WorkerConfig

/-- The least version of the protocol. -/
def leastVersion : Int := 1

/-- The greatest version of the protocol. -/
def greatestVersion : Int := 1

/-- The directory for sandboxes that nobody chose. -/
def defaultWorkRoot : String := "/tmp/rvi-worker"

/-- The configuration of a worker that nobody configured. -/
def default : WorkerConfig where
  protocolMin := leastVersion
  protocolMax := greatestVersion
  listen := "127.0.0.1:15000"
  workRoot := defaultWorkRoot
  operationTimeoutSeconds := 600
  ioTimeoutSeconds := 60
  keepSandboxes := false
  maxRequestBytes := 256 * 1024 * 1024

instance : Inhabited WorkerConfig := ⟨default⟩

/-- The names of the settings. -/
def fields : List String :=
  ["protocol_min", "protocol_max", "listen", "work_root", "operation_timeout_seconds",
   "io_timeout_seconds", "keep_sandboxes", "max_request_bytes"]

instance : Wire WorkerConfig where
  encode c := .object
    [("protocol_min", .integer c.protocolMin), ("protocol_max", .integer c.protocolMax),
     ("listen", .text c.listen), ("work_root", .text c.workRoot),
     ("operation_timeout_seconds", .nat c.operationTimeoutSeconds),
     ("io_timeout_seconds", .nat c.ioTimeoutSeconds), ("keep_sandboxes", .bool c.keepSandboxes),
     ("max_request_bytes", .nat c.maxRequestBytes)]
  decode := Json.record "WorkerConfig" fields fun r ↦
    WorkerConfig.mk <$> r.withDefault "protocol_min" Json.int32 default.protocolMin
      <*> r.withDefault "protocol_max" Json.int32 default.protocolMax
      <*> r.withDefault "listen" Json.string default.listen
      <*> r.withDefault "work_root" (Json.textAs "path string") default.workRoot
      <*> r.withDefault "operation_timeout_seconds" (Json.naturalOf "u64" 64)
        default.operationTimeoutSeconds
      <*> r.withDefault "io_timeout_seconds" (Json.naturalOf "u64" 64) default.ioTimeoutSeconds
      <*> r.withDefault "keep_sandboxes" Json.boolean default.keepSandboxes
      <*> r.withDefault "max_request_bytes" (Json.naturalOf "u64" 64) default.maxRequestBytes

open Text.Numeral (integer)

/-- The configuration, if its settings make sense. -/
def check (c : WorkerConfig) : Except Configuration.Fault WorkerConfig :=
  Configuration.firstFault c
    [(decide (c.protocolMax < c.protocolMin), .invalidValue "protocol_min"
        (integer c.protocolMin ++ " is greater than protocol_max " ++ integer c.protocolMax)),
     (c.operationTimeoutSeconds == 0, Configuration.notPositive "operation_timeout_seconds"),
     (c.ioTimeoutSeconds == 0, Configuration.notPositive "io_timeout_seconds")]

/-- The configuration in a document. -/
def read (document : String) : Except Configuration.Fault WorkerConfig :=
  Configuration.read check document

/-- The configuration in a file. -/
def load (fs : Files) (path : String) : Except Configuration.Fault WorkerConfig :=
  Configuration.load read fs path

end WorkerConfig
end FirmwareLane
