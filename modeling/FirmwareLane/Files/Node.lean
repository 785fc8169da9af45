import FirmwareLane.Keyed
import FirmwareLane.Text.Utf8

/-!
# Trees of files

A node of a file tree is a file, a symbolic link, a directory or a device.  A place is the list of
names that lead to a node from the root, each the name of an entry of a directory.  The entries of a
directory are kept in the order of their names.

A file may have several names.  Then there is a node for each, and they share an identity.
-/

set_option autoImplicit false
namespace FirmwareLane

open Text (Bytes)

/-- The names that lead from the root to a node. -/
abbrev Place := List String

/-- A device. -/
inductive Device where
  /-- Takes everything and holds nothing. -/
  | null
  /-- Takes everything and holds zeros without end. -/
  | zero
  /-- Takes nothing and holds zeros without end. -/
  | full
  deriving DecidableEq, Repr

/-- A node of a file tree. -/
inductive Node where
  /-- A file.  All files of one identity are the same one, unless the identity is zero. -/
  | file (mode : Nat) (bytes : Bytes) (identity : Nat)
  | link (target : String)
  | directory (mode : Nat) (entries : List (String × Node))
  | device (d : Device)
  deriving Repr

namespace Node

/-- The permissions of a file made without saying which. -/
def fileMode : Nat := 0o644

/-- The permissions of a directory made without saying which. -/
def directoryMode : Nat := 0o755

/-- A directory without entries. -/
def emptyDirectory : Node := .directory directoryMode []

instance : Inhabited Node := ⟨emptyDirectory⟩

/-- The entries of a directory; other nodes have none. -/
def entries : Node → List (String × Node)
  | directory _ es => es
  | _ => []

/-- Whether a node is a directory. -/
def isDirectory : Node → Bool
  | directory _ _ => true
  | _ => false

/-- Whether a node is a file. -/
def isFile : Node → Bool
  | file _ _ _ => true
  | _ => false

/-- Whether a node is a symbolic link. -/
def isLink : Node → Bool
  | link _ => true
  | _ => false

/-- Whether a node is a device. -/
def isDevice : Node → Bool
  | device _ => true
  | _ => false

/-- The permissions of a node. -/
def mode : Node → Nat
  | file m _ _ => m
  | directory m _ => m
  | link _ => 0o777
  | device _ => 0o666

/-- The bytes of a file, and of a device the finite number of bytes that it holds. -/
def bytes : Node → Bytes
  | file _ b _ => b
  | _ => []

/-- The node with other permissions; links and devices keep theirs. -/
def withMode (m : Nat) : Node → Node
  | file _ b i => file m b i
  | directory _ es => directory m es
  | other => other

/-- The identity of a file, or zero. -/
def identity : Node → Nat
  | file _ _ i => i
  | _ => 0

/-- Something that a user may be allowed to do with what belongs to the user. -/
inductive Permission where
  | read
  | write
  /-- To run a file, or to follow the names in a directory. -/
  | search
  deriving DecidableEq, Repr

/-- Whether the owner of a node may do something with it. -/
def allows (p : Permission) (n : Node) : Bool :=
  let bit := match p with
    | .read => 0o400
    | .write => 0o200
    | .search => 0o100
  n.mode &&& bit != 0

/-! ## Places -/

/-- The node at a place. -/
def at? : Place → Node → Option Node
  | [], n => some n
  | name :: rest, n => (n.entries.lookup name).bind (at? rest)

/-- The tree with the node at a place, or its absence, changed.  Nothing changes unless everything
above the place is a directory, and a root stays. -/
def alter (change : Option Node → Option Node) : Place → Node → Node
  | [], n => (change (some n)).getD n
  | [name], directory m es => directory m (Keyed.alter name change es)
  | name :: rest, directory m es =>
    directory m (Keyed.alter name (fun child ↦ child.map (alter change rest)) es)
  | _ :: _, n => n

/-- The tree with a node at a place. -/
def put (root : Node) (place : Place) (node : Node) : Node := alter (fun _ ↦ some node) place root

/-- The tree without the node at a place. -/
def erase (root : Node) (place : Place) : Node := alter (fun _ ↦ none) place root

/-! ## Everything below a node -/

mutual

/-- The nodes below a node with their places under it: each directory before what is in it, and
entries in their order.  Links are not followed. -/
def descendants : Node → List (Place × Node)
  | directory _ es => entryDescendants es
  | _ => []

/-- The nodes of entries and below them. -/
def entryDescendants : List (String × Node) → List (Place × Node)
  | [] => []
  | (name, node) :: rest =>
    (([], node) :: node.descendants).map (fun (place, n) ↦ (name :: place, n)) ++
      entryDescendants rest

end

/-! ## Files of one identity -/

mutual

/-- The files of an identity below a node, or the node itself. -/
def withIdentity (i : Nat) : Node → List Node
  | file m b j => if i = j then [file m b j] else []
  | directory _ es => entriesWithIdentity i es
  | _ => []

/-- The files of an identity in entries and below them. -/
def entriesWithIdentity (i : Nat) : List (String × Node) → List Node
  | [] => []
  | (_, node) :: rest => node.withIdentity i ++ entriesWithIdentity i rest

end

mutual

/-- The tree with all files of an identity changed. -/
def alterIdentity (i : Nat) (change : Node → Node) : Node → Node
  | file m b j => if i = j then change (file m b j) else file m b j
  | directory m es => directory m (entriesAlterIdentity i change es)
  | other => other

/-- The entries with all files of an identity changed. -/
def entriesAlterIdentity (i : Nat) (change : Node → Node) :
    List (String × Node) → List (String × Node)
  | [] => []
  | (name, node) :: rest =>
    (name, node.alterIdentity i change) :: entriesAlterIdentity i change rest

end

/-- The tree with the file at a place changed under all its names. -/
def alterFile (root : Node) (place : Place) (change : Node → Node) : Node :=
  match root.at? place with
  | some n =>
    if n.identity = 0 then alter (Option.map change) place root
    else root.alterIdentity n.identity change
  | none => root

mutual

/-- The greatest identity of a file below a node, or of the node. -/
def greatestIdentity : Node → Nat
  | file _ _ i => i
  | directory _ es => entriesGreatestIdentity es
  | _ => 0

/-- The greatest identity of a file in entries or below them. -/
def entriesGreatestIdentity : List (String × Node) → Nat
  | [] => 0
  | (_, node) :: rest => max node.greatestIdentity (entriesGreatestIdentity rest)

end

/-! ## Permissions -/

mutual

/-- The tree with the same permissions for every file and directory that can be reached: those in a
directory that cannot be read keep theirs. -/
def withModes (m : Nat) : Node → Node
  | file _ b i => file m b i
  | directory old es =>
    directory m (if (directory old es).allows .read then entriesWithModes m es else es)
  | other => other

/-- The entries with the same permissions for every file and directory that can be reached. -/
def entriesWithModes (m : Nat) : List (String × Node) → List (String × Node)
  | [] => []
  | (name, node) :: rest => (name, node.withModes m) :: entriesWithModes m rest

end

mutual

/-- Whether a node can be removed with all that is below it. -/
def isRemovable : Node → Bool
  | directory m es =>
    (directory m es).allows .read &&
      (es.isEmpty || ((directory m es).allows .write && (directory m es).allows .search)) &&
      entriesRemovable es
  | _ => true

/-- Whether entries can be removed with all that is below them. -/
def entriesRemovable : List (String × Node) → Bool
  | [] => true
  | (_, node) :: rest => node.isRemovable && entriesRemovable rest

end

end Node
end FirmwareLane
