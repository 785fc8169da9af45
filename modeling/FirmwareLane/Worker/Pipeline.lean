import FirmwareLane.Message.Payload
import FirmwareLane.Worker.Machine

/-!
# Pipelines

The operations of a request are carried out in order in one directory.  The first one that does not
succeed is described, and those after it are skipped.  Every operation gets a report, whether it was
carried out or not.
-/

set_option autoImplicit false
namespace FirmwareLane

/-- Operations to be carried out in a directory, each for at most so many milliseconds. -/
structure Pipeline where
  root : String
  timeout : Nat

namespace Pipeline

/-- What came of a pipeline. -/
structure Outcome where
  /-- The description of the operation that did not succeed. -/
  diagnostics : Option String
  /-- A report for every operation, in order. -/
  reports : List Report
  deriving DecidableEq

/-- Whether every operation succeeded. -/
def Outcome.succeeded (o : Outcome) : Bool := o.diagnostics.isNone

open Text.Numeral (decimal integer)

/-- The status of an operation by how its command line ended. -/
def status : Ending → Status
  | .exited code => if code = 0 then .succeeded else .failed
  | .timedOut => .timedOut
  | _ => .failed

/-- The exit code of a command line that has one. -/
def exitCode? : Ending → Option Int
  | .exited code => some code
  | _ => none

/-- What is reported as the error output of a command line. -/
def errorText (r : Run) : String :=
  let captured := Text.Utf8.lossy r.stderr
  match r.ending with
  | .unstartable reason => "failed to start shell: " ++ reason
  | .lost reason =>
    let failure := "failed to wait for shell: " ++ reason
    if captured.isEmpty then failure else captured ++ "\n" ++ failure
  | _ => captured

/-- What is reported as the output of a command line. -/
def outputText (r : Run) : String :=
  match r.ending with
  | .unstartable _ => ""
  | _ => Text.Utf8.lossy r.stdout

/-- The report on a command line. -/
def reportOf (index : Nat) (operation : Operation) (r : Run) : Report where
  index
  operation
  status := status r.ending
  exitCode := exitCode? r.ending
  stdout := outputText r
  stderr := errorText r
  startedAt := some r.startedAt
  durationMs := r.elapsed

/-- Whether the output of a command line is waited for. -/
def isDrained : Ending → Bool
  | .unstartable _ => false
  | _ => true

/-- Gives every file and directory below a path, and that directory itself, the permissions that
let it be run or entered.  What cannot be reached is left alone. -/
def resetModes (root : String) (fs : Files) : Files :=
  match fs.present true root with
  | .ok (place, node) => { fs with root := fs.root.put place (node.withModes Node.directoryMode) }
  | .error _ => fs

/-- The report on a reset. -/
def resetReport (index : Nat) (time : Timestamp) : Report :=
  ⟨index, .reset, .succeeded, none, "", "", some time, 0⟩

/-- Carries out one operation. -/
def carryOut (m : Machine) (p : Pipeline) (index : Nat) (operation : Operation) (fs : Files) :
    Except Crash Report × Files :=
  match operation with
  | .reset => (.ok (resetReport index (m.time index)), resetModes p.root fs)
  | .shell _ commandLine =>
    let (r, fs') := m.run index p.root p.timeout commandLine fs
    if isDrained r.ending then
      match deadline p.timeout r with
      | .ok _ => (.ok (reportOf index operation r), fs')
      | .error crash => (.error crash, fs')
    else (.ok (reportOf index operation r), fs')

/-- What a failing operation is called. -/
def subject (r : Report) : String :=
  "operation #" ++ decimal r.index ++
    match r.operation.commandLine? with
    | some c => " \x60" ++ c ++ "\x60"
    | none => " (" ++ r.operation.describe ++ ")"

/-- The description of an operation that did not succeed. -/
def describeFailure (timeout : Nat) (r : Report) : String :=
  let message := subject r ++
    match r.status, r.exitCode with
    | .timedOut, _ => " timed out after " ++ decimal (timeout / 1000) ++ "s"
    | _, some code => " exited with status " ++ integer code
    | _, none => " did not complete"
  let stderr := Text.trimmed r.stderr
  if stderr.isEmpty then message else message ++ "\n" ++ stderr

/-- The reports on operations that are skipped, numbered from an index on. -/
def skipAll (index : Nat) : List Operation → List Report
  | [] => []
  | operation :: rest => .skipped index operation :: skipAll (index + 1) rest

/-- Carries out operations numbered from an index on. -/
def executeFrom (m : Machine) (p : Pipeline) (index : Nat) :
    List Operation → Files → Except Crash Outcome × Files
  | [], fs => (.ok ⟨none, []⟩, fs)
  | operation :: rest, fs =>
    match carryOut m p index operation fs with
    | (.error crash, fs') => (.error crash, fs')
    | (.ok report, fs') =>
      if report.status = .succeeded then
        match executeFrom m p (index + 1) rest fs' with
        | (.ok outcome, fs'') => (.ok { outcome with reports := report :: outcome.reports }, fs'')
        | (.error crash, fs'') => (.error crash, fs'')
      else
        (.ok ⟨some (describeFailure p.timeout report), report :: skipAll (index + 1) rest⟩, fs')

/-- Carries out operations in order, up to the first one that does not succeed. -/
def execute (m : Machine) (p : Pipeline) (operations : List Operation) (fs : Files) :
    Except Crash Outcome × Files :=
  executeFrom m p 0 operations fs

end Pipeline
end FirmwareLane
