import FirmwareLane.Configuration

/-!
# The configuration of a client

Where the worker listens, and how long to wait for it.
-/

set_option autoImplicit false
namespace FirmwareLane

open Json (Wire)

/-- Where a worker listens. -/
structure Endpoint where
  host : String
  port : Nat
  deriving DecidableEq, Repr

namespace Endpoint

/-- Where a worker listens that nobody configured. -/
def default : Endpoint := ⟨"127.0.0.1", 15000⟩

/-- Host and port. -/
def describe (e : Endpoint) : String := e.host ++ ":" ++ Text.Numeral.decimal e.port

instance : Wire Endpoint where
  encode e := .object [("host", .text e.host), ("port", .nat e.port)]
  decode := Json.record "Endpoint" ["host", "port"] fun r ↦
    Endpoint.mk <$> r.withDefault "host" Json.string default.host
      <*> r.withDefault "port" (Json.naturalOf "u16" 16) default.port

end Endpoint

/-- The configuration of a client. -/
structure ClientConfig where
  endpoint : Endpoint
  /-- How long to try to reach the worker. -/
  connectTimeoutSeconds : Nat
  /-- How long to wait for the response. -/
  ioTimeoutSeconds : Nat
  deriving DecidableEq, Repr

namespace ClientConfig

/-- The configuration of a client that nobody configured. -/
def default : ClientConfig := ⟨Endpoint.default, 10, 900⟩

instance : Inhabited ClientConfig := ⟨default⟩

/-- Where a configuration is looked for when none is named. -/
def defaultPath : String := ".rvi/client.toml"

instance : Wire ClientConfig where
  encode c := .object
    [("endpoint", Wire.encode c.endpoint),
      ("connect_timeout_seconds", .nat c.connectTimeoutSeconds),
     ("io_timeout_seconds", .nat c.ioTimeoutSeconds)]
  decode := Json.record "ClientConfig" ["endpoint", "connect_timeout_seconds", "io_timeout_seconds"]
    fun r ↦
      ClientConfig.mk <$> r.withDefault "endpoint" Wire.decode default.endpoint
        <*> r.withDefault "connect_timeout_seconds" (Json.naturalOf "u64" 64)
          default.connectTimeoutSeconds
        <*> r.withDefault "io_timeout_seconds" (Json.naturalOf "u64" 64) default.ioTimeoutSeconds

/-- The configuration, if its settings make sense. -/
def check (c : ClientConfig) : Except Configuration.Fault ClientConfig :=
  Configuration.firstFault c
    [((Text.trim c.endpoint.host.toList).isEmpty,
        .invalidValue "endpoint.host" "must not be empty"),
     (c.endpoint.port == 0, Configuration.notPositive "endpoint.port"),
     (c.connectTimeoutSeconds == 0, Configuration.notPositive "connect_timeout_seconds"),
     (c.ioTimeoutSeconds == 0, Configuration.notPositive "io_timeout_seconds")]

/-- The configuration in a document. -/
def read (document : String) : Except Configuration.Fault ClientConfig :=
  Configuration.read check document

/-- The configuration in a file. -/
def load (fs : Files) (path : String) : Except Configuration.Fault ClientConfig :=
  Configuration.load read fs path

/-- The configuration in the file that is named, else in the one that a directory may have in its
usual place, else the default. -/
def discover (fs : Files) (named : Option String) (directory : String) :
    Except Configuration.Fault ClientConfig :=
  match named with
  | some path => load fs path
  | none =>
    let path := Path.below directory defaultPath
    if fs.isFile path then load fs path else .ok default

end ClientConfig
end FirmwareLane
