import FirmwareLane.Assembly.Program
import FirmwareLane.Message.Envelope
import FirmwareLane.Snapshot.Diff
import FirmwareLane.Transfer.Basic
import FirmwareLane.Worker.Config
import FirmwareLane.Worker.Pipeline
import FirmwareLane.Worker.Sandbox

/-!
# The services of a worker

A worker reads one line with a request and writes one line with the response.  The request is
refused if the line is too long, no request, or of a version that is not served; else one of three
services answers it.

A run is carried out in a sandbox: the snapshot of the request is restored, the operations are
carried out, and the directory is captured.  The response carries all captured files, or those that
are new or changed against a capture right after the restoring.
-/

set_option autoImplicit false
namespace FirmwareLane

open Json (Wire)
open Text (Bytes)

/-- The files of a worker, and how many sandboxes it made. -/
structure Host where
  files : Files
  sandboxes : Nat

namespace Service

/-- The names of the services. -/
def names : List String := ["probe", "run", "asm"]

/-- The version of the lane. -/
def laneVersion : String := "0.1.0"

/-- The version that only probes have. -/
def probeVersion : Int := 0

/-! ## Probing and assembling -/

/-- What a worker says that it offers. -/
def offer (config : WorkerConfig) : ProbeResponse where
  protocolMin := config.protocolMin
  protocolMax := config.protocolMax
  laneVersion := laneVersion
  operations := names
  interpreters := [.posix, .native]
  maxRequestBytes := config.maxRequestBytes

/-- The words of the source text that a request carries. -/
def asm (request : Request) : Except RemoteError AsmResponse := do
  let payload : AsmRequest ← request.parsePayload
  match Assembly.assemble payload.source with
  | .ok words => .ok ⟨words.map BitVec.toNat⟩
  | .error failure => .error (.malformedAssembly failure.line failure.fault.message)

/-! ## Running -/

/-- The error of a snapshot that cannot be restored. -/
def restoreFailed (fault : Transfer.Fault) : RemoteError :=
  .sandboxFailed ("failed to restore snapshot: " ++ fault.message)

/-- The error of a sandbox that cannot be captured. -/
def captureFailed (fault : Transfer.Fault) : RemoteError :=
  .sandboxFailed ("failed to capture sandbox: " ++ fault.message)

/-- The capture of a sandbox. -/
def captureSandbox (fs : Files) (root : String) (table : Classification) :
    Except RemoteError Snapshot :=
  match Transfer.capture fs root table with
  | .ok s => .ok s
  | .error fault => .error (captureFailed fault)

/-- The capture that changes are measured against, if only changes are wanted. -/
def baseline (fs : Files) (root : String) (request : RunRequest) :
    Except RemoteError (Option Snapshot) :=
  if request.modifiedOnly then (captureSandbox fs root request.extensions).map some else .ok none

/-- The snapshot that is sent back. -/
def returned : Option Snapshot → Snapshot → Snapshot
  | some before, after => before.modified after
  | none, after => after

/-- The response to a run whose operations came to an outcome. -/
def runResponse (fs : Files) (root : String) (request : RunRequest) (before : Option Snapshot)
    (outcome : Pipeline.Outcome) : Except RemoteError RunResponse := do
  let after ← captureSandbox fs root request.extensions
  return ⟨outcome.succeeded, returned before after, outcome.diagnostics, outcome.reports⟩

/-- Carries out a run in a sandbox that was just made. -/
def runInside (m : Machine) (config : WorkerConfig) (request : RunRequest) (root : String)
    (fs : Files) : Except Crash (Except RemoteError RunResponse) × Files :=
  match Action.perform (Transfer.restore root request.snapshot) fs with
  | (.error fault, fs) => (.ok (.error (restoreFailed fault)), fs)
  | (.ok (), fs) =>
    match baseline fs root request with
    | .error e => (.ok (.error e), fs)
    | .ok before =>
      let pipeline : Pipeline := ⟨root, config.operationTimeoutSeconds * 1000⟩
      match pipeline.execute m request.operations fs with
      | (.error crash, fs) => (.error crash, fs)
      | (.ok outcome, fs) => (.ok (runResponse fs root request before outcome), fs)

/-- The files when the work in a sandbox is over. -/
def leave (config : WorkerConfig) (root : String) (fs : Files) : Files :=
  if config.keepSandboxes then fs else Sandbox.remove root fs

/-- Carries out the run that a request asks for. -/
def run (m : Machine) (config : WorkerConfig) (request : Request) (host : Host) :
    Except Crash (Except RemoteError RunResponse) × Host :=
  match (request.parsePayload : Except RemoteError RunRequest) with
  | .error e => (.ok (.error e), host)
  | .ok payload =>
    let name := Sandbox.name request.requestId (m.nanoseconds host.sandboxes) host.sandboxes
    match Action.perform (Sandbox.create config.workRoot name) host.files with
    | (.error fault, fs) =>
      (.ok (.error (.sandboxFailed fault.message)), ⟨fs, host.sandboxes + 1⟩)
    | (.ok root, fs) =>
      let (result, fs) := runInside m config payload root fs
      (result, ⟨leave config root fs, host.sandboxes + 1⟩)

/-! ## Reading a request -/

/-- Whether a byte is blank in a request line. -/
def isBlankByte (b : UInt8) : Bool := b = 32 || b = 9 || b = 10 || b = 12 || b = 13

/-- The bytes up to and with the first line end, and whether there is one. -/
def firstLine : Bytes → Bytes × Bool
  | [] => ([], false)
  | b :: rest =>
    if b = 10 then ([b], true)
    else
      let (line, ended) := firstLine rest
      (b :: line, ended)

/-- The number of bytes that are read at most: one more than a request may have, or as many as can
be counted. -/
def readLimit (config : WorkerConfig) : Nat := min (config.maxRequestBytes + 1) (Nat.pow 2 64 - 1)

/-- The bytes of a request: those of the first line, and at most one more than are allowed.  If the
input breaks off for a reason before either is reached, there is no request. -/
def requestBytes (config : WorkerConfig) (input : Bytes) (broken : Option String) :
    Except RemoteError Bytes :=
  let (line, ended) := firstLine (input.take (readLimit config))
  match broken with
  | some reason =>
    if ended || config.maxRequestBytes < line.length then .ok line
    else .error (.invalidRequest ("failed to read request: " ++ reason))
  | none => .ok line

/-- The request in an input. -/
def readRequest (config : WorkerConfig) (input : Bytes) (broken : Option String) :
    Except RemoteError Request := do
  let line ← requestBytes config input broken
  if config.maxRequestBytes < line.length then
    .error (.payloadTooLarge line.length config.maxRequestBytes)
  else if line.all isBlankByte then .error (.invalidRequest "empty request")
  else
    match Wire.ofBytes line with
    | .ok request => .ok request
    | .error fault => .error (.invalidRequest ("invalid JSON: " ++ fault.message))

/-- The error of a request whose version is not served, if it is not. -/
def versionError? (config : WorkerConfig) (request : Request) : Option RemoteError :=
  let version := request.protocolVersion
  if request.op = "probe" then
    if version = probeVersion then none
    else some (.unsupportedProtocol version probeVersion probeVersion)
  else if version < config.protocolMin ∨ config.protocolMax < version then
    some (.unsupportedProtocol version config.protocolMin config.protocolMax)
  else none

/-! ## Answering -/

/-- The payload of a result. -/
def payload {α : Type} [Wire α] : Except RemoteError α → Except RemoteError Json
  | .ok a => .ok (Wire.encode a).sorted
  | .error e => .error e

/-- The result of the service that a request names. -/
def dispatch (m : Machine) (config : WorkerConfig) (request : Request) (host : Host) :
    Except Crash (Except RemoteError Json) × Host :=
  if request.op = "probe" then (.ok (payload (.ok (offer config))), host)
  else if request.op = "run" then
    let (result, host) := run m config request host
    (result.map payload, host)
  else if request.op = "asm" then (.ok (payload (asm request)), host)
  else (.ok (.error (.unknownOperation request.op)), host)

/-- The response to a request with a result. -/
def responseTo (request : Request) : Except RemoteError Json → Response
  | .ok p => .success request.protocolVersion request.requestId p
  | .error e => .failure request.protocolVersion request.requestId e

/-- The response to an input, which breaks off for a reason or just ends. -/
def respond (m : Machine) (config : WorkerConfig) (input : Bytes) (broken : Option String)
    (host : Host) : Except Crash Response × Host :=
  match readRequest config input broken with
  | .error e => (.ok (.failure probeVersion "" e), host)
  | .ok request =>
    match versionError? config request with
    | some e => (.ok (responseTo request (.error e)), host)
    | none =>
      let (result, host) := dispatch m config request host
      (result.map (responseTo request), host)

/-- The line of a response. -/
def line (r : Response) : String := Wire.print r ++ "\n"

end Service
end FirmwareLane
