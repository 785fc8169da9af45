import FirmwareLane.Client.Arguments
import FirmwareLane.Client.Config
import FirmwareLane.Client.Draft
import FirmwareLane.Client.Session
import FirmwareLane.Console
import FirmwareLane.Transfer.Basic

/-!
# The command line of a client

The command `run` sends a folder to the worker, prints what became of the operations and puts the
files that come back into a folder; `asm` prints the words of a source text, and `probe` what the
worker offers.  A fault is printed, and its kind is the exit code.
-/

set_option autoImplicit false
namespace FirmwareLane
namespace ClientCommand

open Json (Wire)
open Text (Bytes)
open Text.Numeral (decimal integer)

/-- The console after a fault. -/
def fail (f : ClientFault) : Console := .failed f.exitCode ("Error: " ++ f.message ++ "\n")

/-- The console after a result that prints something. -/
def conclude : Except ClientFault String → Console
  | .ok text => .done text
  | .error f => fail f

/-! ## Printing -/

/-- The lines as one text. -/
def unlines (lines : List String) : String := String.join (lines.map (· ++ "\n"))

/-- What a status is called. -/
def statusWord : Status → String
  | .succeeded => "ok"
  | .failed => "FAILED"
  | .timedOut => "TIMED OUT"
  | .skipped => "skipped"

/-- The line of a report. -/
def reportLine (r : Report) : String :=
  "[" ++ decimal r.index ++ "] " ++ statusWord r.status ++ " (" ++ decimal r.durationMs ++
    " ms): " ++ r.operation.describe

/-- A response for a reader. -/
def responseText (r : RunResponse) : String :=
  unlines (r.reports.map reportLine ++
    [decimal r.snapshot.size ++ " file(s) returned"] ++ r.snapshot.paths.map ("  " ++ ·))

/-- A response for a program. -/
def responseJson (r : RunResponse) : Json :=
  (Json.object
    [("succeeded", .bool r.succeeded), ("diagnostics", Json.optionalText r.diagnostics),
     ("files", .array (r.snapshot.paths.map .text)),
     ("reports", .array (r.reports.map Wire.encode))]).sorted

/-- A word as it is printed. -/
def wordText (w : Nat) : String :=
  "0x" ++ String.ofList ((Text.Numeral.writePadded 16 8 w).map Char.toUpper)

/-- The words of a source text as they are printed. -/
def wordsText (json : Bool) (words : List Nat) : String :=
  if json then (Json.object [("words", .array (words.map .nat))]).print ++ "\n"
  else unlines (words.map wordText)

/-- What a worker offers as it is printed. -/
def offerText (json : Bool) (r : ProbeResponse) : String :=
  if json then (Wire.encode r).pretty ++ "\n"
  else
    unlines
      ["Lane version: " ++ r.laneVersion,
       "Protocol:     [" ++ integer r.protocolMin ++ ", " ++ integer r.protocolMax ++ "]",
       "Operations:   " ++ ", ".intercalate r.operations,
       "Max request:  " ++ decimal r.maxRequestBytes ++ " bytes"]

/-! ## Commands -/

/-- Puts the files of a response into a folder, if there is one to put them into, and gives what is
printed about the response. -/
def deliver (a : RunArguments) (r : RunResponse) : Files.Action ClientFault String := do
  match a.out with
  | some out => Files.describing .transfer (Transfer.restore out r.snapshot)
  | none => pure ()
  return if a.json then (responseJson r).pretty ++ "\n" else responseText r

/-- The draft that arguments describe. -/
def draft (a : RunArguments) : Draft :=
  .ofSteps
    [.extensions (.ofList a.classes), .root a.root, .operations a.operations,
     if a.files.isEmpty then .allRegistered else .files a.files] |> fun d ↦
  if a.modifiedOnly then d.step .modifiedOnly else d

variable {σ : Type}

/-- Runs operations. -/
def runOperations (t : Transport σ) (milliseconds : Nat) (a : RunArguments) (fs : Files)
    (s : Session σ) : Console × Files × Session σ :=
  match (draft a).finish fs with
  | .error f => (fail f, fs, s)
  | .ok request =>
    match Session.run t milliseconds request s with
    | (.ok response, s) =>
      let (result, fs) := Action.perform (deliver a response) fs
      (conclude result, fs, s)
    | (.error f, s) =>
      match f.response? with
      | none => (fail f, fs, s)
      | some response =>
        match Action.perform (deliver a response) fs with
        | (.ok text, fs) => ({ fail f with stdout := text }, fs, s)
        | (.error f, fs) => (fail f, fs, s)

/-- The source text in a file or, if none is named, on standard input. -/
def source (fs : Files) (file : Option String) (stdin : Bytes) : Except ClientFault String :=
  let text := match file with
    | some path => fs.readText path
    | none =>
      match Text.Utf8.string? stdin with
      | some s => .ok s
      | none => .error .notText
  text.mapError fun fault ↦
    .invalidRequest ("failed to read assembly source: " ++ fault.message)

/-- Carries out a command over a transport. -/
def carryOut (t : Transport σ) (milliseconds : Nat) (c : Command) (stdin : Bytes) (fs : Files)
    (s : Session σ) : Console × Files × Session σ :=
  match c with
  | .run a => runOperations t milliseconds a fs s
  | .asm file json =>
    match source fs file stdin with
    | .error f => (fail f, fs, s)
    | .ok text =>
      let (result, s) := Session.asm t milliseconds text s
      (conclude (result.map (wordsText json)), fs, s)
  | .probe json =>
    let (result, s) := Session.probe t milliseconds s
    (conclude (result.map (offerText json)), fs, s)

/-- The configuration that a command line asks for, with what it says itself in place. -/
def configuration (c : Connection) (fs : Files) (directory : String) :
    Except Configuration.Fault ClientConfig := do
  let config ← ClientConfig.discover fs c.config directory
  return { config with
    endpoint := ⟨c.host.getD config.endpoint.host, c.port.getD config.endpoint.port⟩ }

/-- The version of the client. -/
def versionText : String := "rvi 0.1.0\n"

/-- The console of a command line that is not carried out.  What it says about the usage is not
settled here. -/
def stopped : Stop → Console
  | .help => .done ""
  | .version => .done versionText
  | .badOperation _ => .failed FailureKind.usage.exitCode ""
  | .misuse => .failed FailureKind.usage.exitCode ""

/-- Carries out a command line in a directory, with a transport for every endpoint. -/
def run (transportTo : ClientConfig → Transport σ) (milliseconds : Nat) (words : List String)
    (stdin : Bytes) (directory : String) (fs : Files) (state : σ) : Console × Files × σ :=
  match read words with
  | .error stop => (stopped stop, fs, state)
  | .ok (c, command) =>
    match configuration c fs directory with
    | .error fault => (fail (.configuration fault), fs, state)
    | .ok config =>
      let (console, fs, s) :=
        carryOut (transportTo config) milliseconds command stdin fs ⟨0, state⟩
      (console, fs, s.state)

end ClientCommand
end FirmwareLane
