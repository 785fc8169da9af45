import FirmwareLane.Client.Fault
import FirmwareLane.Transfer.Basic

/-!
# Drafts of requests

A request to run operations is drafted step by step: which extensions are registered, which folder
the files come from and which of its files, files made up on the spot, and the operations.  When the
draft is finished the files are captured, and the files made up on the spot are laid over them.
-/

set_option autoImplicit false
namespace FirmwareLane

/-- Which files of the folder are sent. -/
inductive Selection where
  | nothing
  | allRegistered
  | files (paths : List String)
  deriving DecidableEq, Repr

/-- A draft of a request to run operations. -/
structure Draft where
  extensions : Classification
  root : Option String
  selection : Selection
  /-- Files made up on the spot, the first one first. -/
  generated : List Entry
  operations : List Operation
  modifiedOnly : Bool
  deriving DecidableEq

namespace Draft

/-- The draft that nothing was said about. -/
def empty : Draft := ⟨.empty, none, .nothing, [], [], false⟩

instance : Inhabited Draft := ⟨empty⟩

/-- One step of drafting. -/
inductive Step where
  | extensions (table : Classification)
  | root (path : String)
  | allRegistered
  | files (paths : List String)
  | file (e : Entry)
  | operations (os : List Operation)
  | modifiedOnly

/-- The draft after a step. -/
def step (d : Draft) : Step → Draft
  | .extensions table => { d with extensions := table }
  | .root path => { d with root := some path }
  | .allRegistered => { d with selection := .allRegistered }
  | .files paths => { d with selection := .files paths }
  | .file e => { d with generated := d.generated ++ [e] }
  | .operations os => { d with operations := d.operations ++ os }
  | .modifiedOnly => { d with modifiedOnly := true }

/-- The draft of steps. -/
def ofSteps (steps : List Step) : Draft := steps.foldl step empty

/-- The files that are selected. -/
def captured (d : Draft) (fs : Files) : Except ClientFault Snapshot :=
  match d.selection, d.root with
  | .nothing, _ => .ok .empty
  | _, none => .error (.invalidRequest "a root folder is required to select files")
  | .allRegistered, some root => (Transfer.capture fs root d.extensions).mapError .transfer
  | .files paths, some root =>
    (Transfer.captureFiles fs root d.extensions paths).mapError .transfer

/-- A snapshot with entries laid over it. -/
def overlay (s : Snapshot) : List Entry → Except Snapshot.Refusal Snapshot
  | [] => .ok s
  | e :: rest =>
    match s.upsert e with
    | .ok (t, _) => overlay t rest
    | .error r => .error r

/-- The request of a draft. -/
def finish (d : Draft) (fs : Files) : Except ClientFault RunRequest := do
  let s ← d.captured fs
  match overlay s d.generated with
  | .ok t => .ok ⟨d.extensions, t, d.operations, d.modifiedOnly⟩
  | .error r => .error (.transfer (.refused r))

end Draft
end FirmwareLane
