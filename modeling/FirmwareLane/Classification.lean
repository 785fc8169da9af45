import FirmwareLane.Json.Decoder
import FirmwareLane.Keyed
import FirmwareLane.Path

/-!
# Classification of files

Whether a file travels as text or as bytes is decided by the extension of its name, from a table
that the caller fills.  Extensions are compared in lower case and without a leading point; files
without an extension are registered under the empty one.

A table is kept in the order of its extensions, so tables with the same registrations are equal.
-/

set_option autoImplicit false
namespace FirmwareLane

/-- How the content of a file travels. -/
inductive Encoding where
  /-- Characters, with lines that end in a line feed. -/
  | text
  /-- Bytes as they are. -/
  | binary
  deriving DecidableEq, Repr

namespace Encoding

/-- The encodings by name. -/
def names : List (String × Encoding) := [("text", .text), ("binary", .binary)]

/-- The name of an encoding. -/
def name : Encoding → String
  | text => "text"
  | binary => "binary"

instance : Json.Wire Encoding where
  encode e := .text e.name
  decode := Json.variant names

end Encoding

/-- A registered extension and its encoding. -/
structure ExtensionClass where
  fileExtension : String
  encoding : Encoding
  deriving DecidableEq, Repr

instance : Json.Wire ExtensionClass where
  encode c := .object
    [("extension", .text c.fileExtension), ("encoding", Json.Wire.encode c.encoding)]
  decode := Json.record "ExtensionClass" ["extension", "encoding"] fun r ↦
    ExtensionClass.mk <$> r.required "extension" Json.string
      <*> r.required "encoding" Json.Wire.decode

/-- A file whose extension is not registered. -/
structure Unclassified where
  path : String
  fileExtension : String
  deriving DecidableEq, Repr

/-- The wording of the fault. -/
def Unclassified.message (u : Unclassified) : String :=
  "extension '" ++ u.fileExtension ++ "' of '" ++ u.path ++ "' is not registered"

/-- The registered extensions, in order. -/
structure Classification where
  classes : List (String × Encoding)
  deriving DecidableEq, Repr

namespace Classification

/-- The table without registrations. -/
def empty : Classification := ⟨[]⟩

instance : Inhabited Classification := ⟨empty⟩

/-- An extension as it is kept: without one leading point, in lower case. -/
def normalExtension (fileExtension : String) : String :=
  let chars := match fileExtension.toList with
    | '.' :: rest => rest
    | chars => chars
  String.ofList (chars.map Char.toLower)

/-- The table with an extension registered, in place of an earlier registration. -/
def register (table : Classification) (fileExtension : String) (encoding : Encoding) :
    Classification :=
  ⟨Keyed.insert (normalExtension fileExtension) encoding table.classes⟩

/-- The table of registrations made one after another. -/
def ofList (registrations : List (String × Encoding)) : Classification :=
  registrations.foldl (fun table (fileExtension, encoding) ↦ table.register fileExtension encoding)
    empty

/-- The encoding of an extension. -/
def lookup? (table : Classification) (fileExtension : String) : Option Encoding :=
  table.classes.lookup (normalExtension fileExtension)

/-- The encoding of a file, if its extension is registered. -/
def encoding? (table : Classification) (path : String) : Option Encoding :=
  table.lookup? (Path.fileExtension path)

/-- Whether a file would be classified rather than refused. -/
def isRegistered (table : Classification) (path : String) : Bool := (table.encoding? path).isSome

/-- The encoding of a file. -/
def classify (table : Classification) (path : String) : Except Unclassified Encoding :=
  match table.encoding? path with
  | some e => .ok e
  | none => .error ⟨path, Path.fileExtension path⟩

/-- The registrations in the order of their extensions. -/
def toList (table : Classification) : List ExtensionClass :=
  table.classes.map fun (fileExtension, encoding) ↦ ⟨fileExtension, encoding⟩

instance : Json.Wire Classification where
  encode table := .array (table.toList.map Json.Wire.encode)
  decode origin d := do
    let classes ← Json.sequence (Json.Wire.decode (α := ExtensionClass)) origin d
    return ofList (classes.map fun c ↦ (c.fileExtension, c.encoding))

end Classification
end FirmwareLane
