import FirmwareLane.Files.Basic
import FirmwareLane.Snapshot.Basic
import FirmwareLane.Text.Blank

/-!
# Transfers between directories and snapshots

The files of a directory as a snapshot: all that have a registered extension (`Transfer.capture`),
in the order of a walk that visits the entries of each directory by name, or those that are listed
(`Transfer.captureFiles`).  The walk does not follow symbolic links; a listed path does.

The other way round the files of a snapshot are written into a directory (`Transfer.restore`).  The
directory and those below it are made where they are missing, files that are there are overwritten,
and all others are left alone.  Text is written with lines that end in a line feed.
-/

set_option autoImplicit false
namespace FirmwareLane
namespace Transfer

open Text (Bytes)

/-! ## Why a transfer fails -/

/-- Why a transfer between a directory and a snapshot fails. -/
inductive Fault where
  /-- There is no directory to capture. -/
  | rootNotFound (root : String)
  /-- The snapshot refuses a file. -/
  | refused (r : Snapshot.Refusal)
  /-- A path leads out of the directory. -/
  | escapesRoot (path : String)
  /-- A file that is classified as text is none. -/
  | invalidText (path : String)
  /-- The file system refuses. -/
  | files (path : String) (fault : Files.Fault)
  /-- A directory does not tell what is in it. -/
  | walk (path : String) (fault : Files.Fault)
  /-- A file is not classified. -/
  | unclassified (u : Unclassified)
  deriving DecidableEq, Repr

/-- The wording of a fault. -/
def Fault.message : Fault → String
  | .rootNotFound root => "snapshot root not found: " ++ root
  | .refused r => r.message
  | .escapesRoot path => (Snapshot.Refusal.escapesRoot path).message
  | .invalidText path => "text file is not valid UTF-8: " ++ path
  | .files path fault => "I/O error at " ++ path ++ ": " ++ fault.message
  | .walk path fault =>
    "walk error: IO error for operation on " ++ path ++ ": " ++ fault.message
  | .unclassified u => u.message

/-! ## Capturing a directory -/

/-- The content of a file as it is classified. -/
def content (path : String) (e : Encoding) (b : Bytes) : Except Fault Content :=
  match e with
  | .binary => .ok (.binary b)
  | .text =>
    match Text.Utf8.string? b with
    | some s => .ok (.text (Text.withLineFeeds s))
    | none => .error (.invalidText path)

/-- The snapshot with one more captured file. -/
def add (s : Snapshot) (path : String) (e : Encoding) (b : Bytes) : Except Fault Snapshot := do
  let c ← content path e b
  match s.insert ⟨path, c⟩ with
  | .ok t => .ok t
  | .error r => .error (.refused r)

/-- The path of a place below a root. -/
def relative (place : Place) : String := "/".intercalate place

/-- Why a node may not be opened under its full path, if it may not: the path is too long, or a
directory that it is in or the node itself does not allow it. -/
def closed? (full : String) (searchable : Bool) (n : Node) : Option Files.Fault :=
  if Files.greatestPath < full.utf8ByteSize then some .nameTooLong
  else if searchable && n.allows .read then none
  else some .denied

/-- The content of a file, if it can be opened. -/
def reached (full : String) (searchable : Bool) (n : Node) : Except Fault Bytes :=
  match closed? full searchable n with
  | some fault => .error (.files full fault)
  | none => .ok n.bytes

/-- A registered file that a walk comes to, with its path below the root and its content. -/
abbrev Registered := String × Encoding × Except Fault Bytes

mutual

/-- The registered files below a node at a place below a root, in the order of the walk, and the
faults on the way. -/
def registeredBelow (root : String) (table : Classification) (place : Place) (searchable : Bool) :
    Node → List (Except Fault Registered)
  | .directory m es =>
    let full := if place.isEmpty then root else Path.below root (relative place)
    match closed? full searchable (.directory m es) with
    | some fault => [.error (.walk full fault)]
    | none =>
      registeredEntries root table place (searchable && (Node.directory m es).allows .search) es
  | .file m b i =>
    match table.encoding? (relative place) with
    | some e =>
      let full := Path.below root (relative place)
      [.ok (relative place, e, reached full searchable (.file m b i))]
    | none => []
  | _ => []

/-- The registered files among entries and below them. -/
def registeredEntries (root : String) (table : Classification) (place : Place) (searchable : Bool) :
    List (String × Node) → List (Except Fault Registered)
  | [] => []
  | (name, n) :: rest =>
    registeredBelow root table (place ++ [name]) searchable n ++
      registeredEntries root table place searchable rest

end

/-- A snapshot with captured files added to it one after another. -/
def addAll (s : Snapshot) : List (Except Fault Registered) → Except Fault Snapshot
  | [] => .ok s
  | .error fault :: _ => .error fault
  | .ok (path, e, content) :: rest => do addAll (← add s path e (← content)) rest

/-- The snapshot of the registered files below a node that is the directory at a path. -/
def captureNode (root : String) (table : Classification) (node : Node) : Except Fault Snapshot :=
  addAll .empty (registeredBelow root table [] true node)

/-- The directory at a path. -/
def directoryAt (fs : Files) (root : String) : Except Fault Node :=
  match fs.node root with
  | .ok (.directory mode entries) => .ok (.directory mode entries)
  | _ => .error (.rootNotFound root)

/-- The snapshot of the registered files of a directory. -/
def capture (fs : Files) (root : String) (table : Classification) : Except Fault Snapshot := do
  captureNode root table (← directoryAt fs root)

/-- A snapshot with a listed file of a directory added. -/
def addListed (fs : Files) (root : String) (table : Classification) (s : Snapshot)
    (path : String) : Except Fault Snapshot := do
  let normal := Path.normalize path
  let e ← match table.classify path with
    | .ok e => .ok e
    | .error u => .error (.unclassified u)
  match Path.belowOnly? root normal with
  | none => .error (.escapesRoot normal)
  | some full =>
    match fs.read full with
    | .ok b => add s normal e b
    | .error fault => .error (.files full fault)

/-- The snapshot of listed files of a directory. -/
def captureFiles (fs : Files) (root : String) (table : Classification) (paths : List String) :
    Except Fault Snapshot := do
  let _ ← directoryAt fs root
  paths.foldlM (addListed fs root table) .empty

/-! ## Restoring a snapshot -/

/-- The bytes that are written for a content. -/
def written : Content → Bytes
  | .text s => Text.Utf8.bytes (Text.withLineFeeds s)
  | .binary b => b

/-- Writes one entry below a directory. -/
def restoreEntry (root : String) (e : Entry) : Files.Action Fault Unit := do
  match Path.belowOnly? root e.path with
  | none => throw (.escapesRoot e.path)
  | some target => do
    match Path.parent? target with
    | some parent => Files.describing (.files parent) (Files.createAll parent)
    | none => pure ()
    Files.describing (.files target) (Files.write target (written e.content))

/-- Writes a snapshot into a directory. -/
def restore (root : String) (s : Snapshot) : Files.Action Fault Unit := do
  Files.describing (.files root) (Files.createAll root)
  s.entries.forM (restoreEntry root)

end Transfer
end FirmwareLane
