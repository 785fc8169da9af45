import FirmwareLane.Action
import FirmwareLane.Files.Node
import FirmwareLane.Path
import FirmwareLane.Text.Numeral

/-!
# File systems

A file system is a tree of files with the directory that relative paths begin at.  A path leads
along its names; a symbolic link on the way is replaced by its target, at most forty times, and one
at the end is replaced if the operation follows links.  Whoever follows a path owns everything and
has the permissions of an owner.

An operation that changes files is an `Action`: what it did stays done when it fails.  Why it fails
is a `Fault`, with the wording and the number by which the system knows it.
-/

set_option autoImplicit false
namespace FirmwareLane

open Text (Bytes)

/-- A file system as a process sees it. -/
structure Files where
  root : Node
  /-- Where relative paths begin. -/
  here : Place

namespace Files

/-! ## Faults -/

/-- Why an operation on files fails. -/
inductive Fault where
  | notPermitted
  | notFound
  | badDescriptor
  | denied
  | busy
  | taken
  | crossDevice
  | notDirectory
  | isDirectory
  | invalid
  | noSpace
  /-- Nobody reads what is written. -/
  | brokenPipe
  | nameTooLong
  | notEmpty
  | tooManyLinks
  /-- A name has the character in it that ends names. -/
  | unnameable
  /-- The bytes are not text. -/
  | notText
  deriving DecidableEq, Repr

namespace Fault

/-- The number of a fault, if the system numbers it. -/
def number? : Fault → Option Nat
  | notPermitted => some 1
  | notFound => some 2
  | badDescriptor => some 9
  | denied => some 13
  | busy => some 16
  | taken => some 17
  | crossDevice => some 18
  | notDirectory => some 20
  | isDirectory => some 21
  | invalid => some 22
  | noSpace => some 28
  | brokenPipe => some 32
  | nameTooLong => some 36
  | notEmpty => some 39
  | tooManyLinks => some 40
  | unnameable => none
  | notText => none

/-- The reason that a fault gives. -/
def reason : Fault → String
  | notPermitted => "Operation not permitted"
  | notFound => "No such file or directory"
  | badDescriptor => "Bad file descriptor"
  | denied => "Permission denied"
  | busy => "Device or resource busy"
  | taken => "File exists"
  | crossDevice => "Invalid cross-device link"
  | notDirectory => "Not a directory"
  | isDirectory => "Is a directory"
  | invalid => "Invalid argument"
  | noSpace => "No space left on device"
  | brokenPipe => "Broken pipe"
  | nameTooLong => "File name too long"
  | notEmpty => "Directory not empty"
  | tooManyLinks => "Too many levels of symbolic links"
  | unnameable => "file name contained an unexpected NUL byte"
  | notText => "stream did not contain valid UTF-8"

/-- The reason and the number. -/
def message (f : Fault) : String :=
  match f.number? with
  | some n => f.reason ++ " (os error " ++ Text.Numeral.decimal n ++ ")"
  | none => f.reason

end Fault

instance : Inhabited Files := ⟨⟨default, []⟩⟩

/-! ## Finding -/

/-- What a path leads to. -/
inductive Target where
  | present (place : Place) (node : Node)
  /-- There is a directory, and nothing under this name in it. -/
  | vacant (place : Place)

/-- The names that a path leads along.  A separator at the end asks for a directory. -/
def steps (path : String) : List String :=
  let pieces := (Text.splitOn '/' path.toList).filter fun piece ↦ !piece.isEmpty
  let last := if path.toList.getLast? = some '/' ∧ !pieces.isEmpty then ["."] else []
  pieces.map String.ofList ++ last

/-- Whether a path begins at the root. -/
def isAbsolute (path : String) : Bool := path.toList.head? == some '/'

/-- The number of symbolic links that a path may lead through. -/
def greatestLinks : Nat := 40

/-- The greatest number of bytes of a name. -/
def greatestName : Nat := 255

/-- The greatest number of bytes of a path. -/
def greatestPath : Nat := 4095

/-- What names lead to from a place, given what they lead to after one more link. -/
def walkOn (root : Node) (follow : Bool) (jump : Place → List String → Except Fault Target) :
    Place → List String → Except Fault Target
  | place, [] =>
    match root.at? place with
    | some node => .ok (.present place node)
    | none => .error .notFound
  | place, step :: rest =>
    match root.at? place with
    | none => .error .notFound
    | some (.directory mode entries) =>
      if !(Node.directory mode entries).allows .search then .error .denied
      else if step = "." then walkOn root follow jump place rest
      else if step = ".." then walkOn root follow jump place.dropLast rest
      else if greatestName < step.utf8ByteSize then .error .nameTooLong
      else
        match entries.lookup step with
        | none => if rest.isEmpty then .ok (.vacant (place ++ [step])) else .error .notFound
        | some (.link target) =>
          if rest.isEmpty && !follow then .ok (.present (place ++ [step]) (.link target))
          else if target.isEmpty then .error .notFound
          else jump (if isAbsolute target then [] else place) (steps target ++ rest)
        | some _ => walkOn root follow jump (place ++ [step]) rest
    | some _ => .error .notDirectory

/-- What names lead to from a place, through so many links. -/
def walk (root : Node) (follow : Bool) : Nat → Place → List String → Except Fault Target
  | 0 => walkOn root follow fun _ _ ↦ .error .tooManyLinks
  | links + 1 => walkOn root follow (walk root follow links)

/-- What names lead to from where relative paths begin.  If the directory there was removed it is
empty, and the directory above it is still known. -/
def walkFromHere (fs : Files) (follow : Bool) (names : List String) : Except Fault Target :=
  match fs.root.at? fs.here, names.dropWhile (· == ".") with
  | none, [] => .ok (.present fs.here Node.emptyDirectory)
  | none, ".." :: rest => walk fs.root follow greatestLinks fs.here.dropLast rest
  | none, _ :: _ => .error .notFound
  | some _, _ => walk fs.root follow greatestLinks fs.here names

/-- What a path leads to, with a link at its end followed or not. -/
def find (fs : Files) (follow : Bool) (path : String) : Except Fault Target :=
  if path.toList.contains '\x00' then .error .unnameable
  else if path.isEmpty then .error .notFound
  else if greatestPath < path.utf8ByteSize then .error .nameTooLong
  else if isAbsolute path then walk fs.root follow greatestLinks [] (steps path)
  else fs.walkFromHere follow (steps path)

/-- The place and the node that a path leads to. -/
def present (fs : Files) (follow : Bool) (path : String) : Except Fault (Place × Node) :=
  match fs.find follow path with
  | .ok (.present place node) => .ok (place, node)
  | .ok (.vacant _) => .error .notFound
  | .error fault => .error fault

/-- The node that a path leads to. -/
def node (fs : Files) (path : String) : Except Fault Node := (fs.present true path).map (·.2)

/-- Whether a path leads to a directory. -/
def isDirectory (fs : Files) (path : String) : Bool :=
  match fs.node path with
  | .ok n => n.isDirectory
  | .error _ => false

/-- Whether a path leads to a file. -/
def isFile (fs : Files) (path : String) : Bool :=
  match fs.node path with
  | .ok n => n.isFile
  | .error _ => false

/-- Whether a path leads to anything, be it a link to nothing. -/
def isThere (fs : Files) (path : String) : Bool := (fs.present false path).isOk

/-! ## Reading -/

/-- The bytes of the file that a path leads to. -/
def read (fs : Files) (path : String) : Except Fault Bytes :=
  match fs.node path with
  | .ok (.directory _ _) => .error .isDirectory
  | .ok n => if n.allows .read then .ok n.bytes else .error .denied
  | .error fault => .error fault

/-- The text of the file that a path leads to. -/
def readText (fs : Files) (path : String) : Except Fault String :=
  match fs.read path with
  | .ok b =>
    match Text.Utf8.string? b with
    | some s => .ok s
    | none => .error .notText
  | .error fault => .error fault

/-! ## Changing -/

/-- A change of files that may fail; what was done before the failure stays. -/
abbrev Action (ε α : Type) := FirmwareLane.Action Files ε α

/-- The action with its failures described in another way. -/
def describing {ε ε' α : Type} (describe : ε → ε') (action : Action ε α) : Action ε' α :=
  ExceptT.adapt describe action

/-- The result of looking at the files. -/
def look {ε α : Type} (see : Files → Except ε α) : Action ε α := do
  match see (← get) with
  | .ok a => return a
  | .error e => throw e

/-- A change of the tree. -/
def reshape {ε : Type} (change : Node → Node) : Action ε Unit :=
  modify fun fs ↦ { fs with root := change fs.root }

/-- Whether entries may be added to the directory of a place, or taken out of it. -/
def mayChange (fs : Files) (place : Place) : Bool :=
  match fs.root.at? place.dropLast with
  | some above => above.allows .write && above.allows .search
  | none => false

/-- Makes the file that a path leads to hold bytes.  A file that is there keeps its permissions and
all its names. -/
def write (path : String) (b : Bytes) : Action Fault Unit := do
  match ← look fun fs ↦ fs.find true path with
  | .vacant place =>
    unless (← get).mayChange place do throw .denied
    reshape fun root ↦ root.put place (.file Node.fileMode b 0)
  | .present place (.file mode old i) =>
    unless (Node.file mode old i).allows .write do throw .denied
    reshape fun root ↦ root.alterFile place fun n ↦ .file n.mode b n.identity
  | .present _ (.directory _ _) => throw .isDirectory
  | .present _ _ => return

/-- The path without the separators that it ends in. -/
def withoutEnd (path : String) : String :=
  let front := (path.toList.reverse.dropWhile (· == '/')).reverse
  if front.isEmpty then path else String.ofList front

/-- Whether a path is too long to be followed, with the separators that it ends in. -/
def isTooLong (path : String) : Bool :=
  !path.toList.contains '\x00' && decide (greatestPath < path.utf8ByteSize)

/-- The files with one more directory. -/
def withDirectory (fs : Files) (path : String) : Except Fault Files :=
  if isTooLong path then .error .nameTooLong
  else match fs.find false (withoutEnd path) with
  | .ok (.vacant place) =>
    if fs.mayChange place then .ok { fs with root := fs.root.put place Node.emptyDirectory }
    else .error .denied
  | .ok (.present _ _) => .error .taken
  | .error fault => .error fault

/-- The files with a directory at a path, which may be there already. -/
def ensured (fs : Files) (path : String) : Except Fault Files :=
  match fs.withDirectory path with
  | .ok fs' => .ok fs'
  | .error fault => if fs.isDirectory path then .ok fs else .error fault

/-- The action that a function of the files describes. -/
def become {ε : Type} (change : Files → Except ε Files) : Action ε Unit := do
  match change (← get) with
  | .ok fs => set fs
  | .error e => throw e

/-- Makes a directory. -/
def makeDirectory (path : String) : Action Fault Unit := become fun fs ↦ fs.withDirectory path

/-- Makes a directory and the missing ones above it, at most so many levels up. -/
def createUpwards : Nat → String → Action Fault Unit
  | 0, path => become fun fs ↦ fs.ensured path
  | levels + 1, path => do
    if path.isEmpty then return
    match (← get).ensured path with
    | .ok fs => set fs
    | .error .notFound =>
      match Path.parent? path with
      | none => throw .notFound
      | some parent => do
        createUpwards levels parent
        become fun fs ↦ fs.ensured path
    | .error fault => throw fault

/-- Makes a directory and the missing ones above it.  Under no path there is nothing to make. -/
def createAll (path : String) : Action Fault Unit := createUpwards (path.length + 1) path

/-- Removes a directory with all that is in it, if all of it can be removed.  A link that the path
ends in is removed itself. -/
def removeAll (path : String) : Action Fault Unit := do
  let (place, node) ← look fun fs ↦ fs.present false path
  unless node.isDirectory || node.isLink do throw .notDirectory
  unless node.isRemovable && (← get).mayChange place do throw .denied
  reshape fun root ↦ root.erase place

end Files
end FirmwareLane
