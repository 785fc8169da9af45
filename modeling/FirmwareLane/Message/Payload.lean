import FirmwareLane.Message.Operation
import FirmwareLane.Snapshot.Basic
import FirmwareLane.Time.Timestamp

/-!
# Payloads

What the three services of a worker take and give: `run` carries a snapshot and operations and
brings back files and reports, `asm` carries a source text and brings back words, and `probe` brings
back what the worker offers.
-/

set_option autoImplicit false
namespace FirmwareLane

open Json (Wire)

/-! ## Running operations -/

/-- A request to carry out operations on files. -/
structure RunRequest where
  /-- Decides which files come back, and how. -/
  extensions : Classification
  /-- The files to begin with. -/
  snapshot : Snapshot
  operations : List Operation
  /-- Only files that are new or changed come back. -/
  modifiedOnly : Bool
  deriving DecidableEq

instance : Wire RunRequest where
  encode r := .object
    [("extensions", Wire.encode r.extensions), ("snapshot", Wire.encode r.snapshot),
     ("operations", .array (r.operations.map Wire.encode)), ("modified_only", .bool r.modifiedOnly)]
  decode := Json.record "RunRequest" ["extensions", "snapshot", "operations", "modified_only"]
    fun r ↦
      RunRequest.mk <$> r.required "extensions" Wire.decode <*> r.required "snapshot" Wire.decode
        <*> r.required "operations" (Json.sequence Wire.decode)
        <*> r.withDefault "modified_only" Json.boolean false

/-- How an operation ended. -/
inductive Status where
  | succeeded
  | failed
  | timedOut
  /-- An earlier operation failed, and this one was not begun. -/
  | skipped
  deriving DecidableEq, Repr

namespace Status

/-- The statuses by name. -/
def names : List (String × Status) :=
  [("succeeded", .succeeded), ("failed", .failed), ("timed_out", .timedOut), ("skipped", .skipped)]

/-- The name of a status. -/
def name : Status → String
  | succeeded => "succeeded"
  | failed => "failed"
  | timedOut => "timed_out"
  | skipped => "skipped"

instance : Wire Status where
  encode s := .text s.name
  decode := Json.variant names

end Status

/-- The words for a point in time that is missing. -/
def timestampWanted : String := "an RFC 3339 formatted date and time string"

instance : Wire Timestamp where
  encode t := .text t.render
  decode origin d := do
    let s ← Json.textAs timestampWanted origin d
    match Timestamp.read s.toList with
    | .ok t => .ok t
    | .error fault => .error (.refused fault.message)

/-- The record of an operation. -/
structure Report where
  /-- The place of the operation, counted from zero. -/
  index : Nat
  operation : Operation
  status : Status
  exitCode : Option Int
  stdout : String
  stderr : String
  startedAt : Option Timestamp
  durationMs : Nat
  deriving DecidableEq, Repr

/-- The record of an operation that was not begun. -/
def Report.skipped (index : Nat) (operation : Operation) : Report :=
  ⟨index, operation, .skipped, none, "", "", none, 0⟩

instance : Wire Report where
  encode r := Json.present
    [("index", some (.nat r.index)), ("operation", some (Wire.encode r.operation)),
     ("status", some (Wire.encode r.status)), ("exit_code", r.exitCode.map .integer),
     ("stdout", some (.text r.stdout)), ("stderr", some (.text r.stderr)),
     ("started_at", r.startedAt.map Wire.encode), ("duration_ms", some (.nat r.durationMs))]
  decode := Json.record "OperationReport"
    ["index", "operation", "status", "exit_code", "stdout", "stderr", "started_at", "duration_ms"]
    fun r ↦
      Report.mk <$> r.required "index" (Json.naturalOf "usize" 64)
        <*> r.required "operation" Wire.decode <*> r.required "status" Wire.decode
        <*> r.withDefault "exit_code" (Json.nullable Json.int32) none
        <*> r.withDefault "stdout" Json.string "" <*> r.withDefault "stderr" Json.string ""
        <*> r.withDefault "started_at" (Json.nullable Wire.decode) none
        <*> r.withDefault "duration_ms" (Json.naturalOf "u64" 64) 0

/-- The outcome of a request to carry out operations. -/
structure RunResponse where
  /-- Every operation ended well. -/
  succeeded : Bool
  /-- The files after the last operation that was begun. -/
  snapshot : Snapshot
  /-- What the failing operation did. -/
  diagnostics : Option String
  /-- A record for every operation, in order. -/
  reports : List Report
  deriving DecidableEq

instance : Wire RunResponse where
  encode r := Json.present
    [("succeeded", some (.bool r.succeeded)), ("snapshot", some (Wire.encode r.snapshot)),
     ("diagnostics", r.diagnostics.map .text),
     ("reports", some (.array (r.reports.map Wire.encode)))]
  decode := Json.record "RunResponse" ["succeeded", "snapshot", "diagnostics", "reports"] fun r ↦
    RunResponse.mk <$> r.required "succeeded" Json.boolean <*> r.required "snapshot" Wire.decode
      <*> r.withDefault "diagnostics" (Json.nullable Json.string) none
      <*> r.withDefault "reports" (Json.sequence Wire.decode) []

/-! ## Assembling -/

/-- A request to assemble a source text. -/
structure AsmRequest where
  source : String
  deriving DecidableEq, Repr

instance : Wire AsmRequest where
  encode r := .object [("source", .text r.source)]
  decode := Json.record "AsmRequest" ["source"] fun r ↦
    AsmRequest.mk <$> r.required "source" Json.string

/-- The words of a program. -/
structure AsmResponse where
  words : List Nat
  deriving DecidableEq, Repr

instance : Wire AsmResponse where
  encode r := .object [("words", .array (r.words.map .nat))]
  decode := Json.record "AsmResponse" ["words"] fun r ↦
    AsmResponse.mk <$> r.required "words" (Json.sequence (Json.naturalOf "u32" 32))

/-- Where and why a source text was refused. -/
structure AsmErrorData where
  line : Nat
  message : String
  deriving DecidableEq, Repr

instance : Wire AsmErrorData where
  encode r := .object [("line", .nat r.line), ("message", .text r.message)]
  decode := Json.record "AsmErrorData" ["line", "message"] fun r ↦
    AsmErrorData.mk <$> r.required "line" (Json.naturalOf "usize" 64)
      <*> r.required "message" Json.string

/-! ## Probing -/

/-- A request to say what a worker offers. -/
structure ProbeRequest where
  deriving DecidableEq, Repr

instance : Wire ProbeRequest where
  encode _ := .object []
  decode := Json.record "ProbeRequest" [] fun _ ↦ pure ProbeRequest.mk

/-- What a worker offers. -/
structure ProbeResponse where
  protocolMin : Int
  protocolMax : Int
  laneVersion : String
  operations : List String
  interpreters : List Interpreter
  /-- The greatest number of bytes of a request. -/
  maxRequestBytes : Nat
  deriving DecidableEq, Repr

instance : Wire ProbeResponse where
  encode r := .object
    [("protocol_min", .integer r.protocolMin), ("protocol_max", .integer r.protocolMax),
     ("lane_version", .text r.laneVersion), ("operations", .array (r.operations.map .text)),
     ("interpreters", .array (r.interpreters.map Wire.encode)),
     ("max_request_bytes", .nat r.maxRequestBytes)]
  decode := Json.record "ProbeResponse"
    ["protocol_min", "protocol_max", "lane_version", "operations", "interpreters",
     "max_request_bytes"] fun r ↦
      ProbeResponse.mk <$> r.required "protocol_min" Json.int32
        <*> r.required "protocol_max" Json.int32 <*> r.required "lane_version" Json.string
        <*> r.required "operations" (Json.sequence Json.string)
        <*> r.required "interpreters" (Json.sequence Wire.decode)
        <*> r.required "max_request_bytes" (Json.naturalOf "u64" 64)

end FirmwareLane
