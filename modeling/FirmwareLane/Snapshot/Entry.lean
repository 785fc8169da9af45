import FirmwareLane.Classification
import FirmwareLane.Digest.Sha2
import FirmwareLane.Text.Base64

/-!
# Entries of a snapshot

A file with its path and its content.  The content is text or bytes, as the file was classified, and
an entry says which, so the one is never taken for the other.
-/

set_option autoImplicit false
namespace FirmwareLane

open Text (Bytes)

/-- The content of a file. -/
inductive Content where
  | text (s : String)
  | binary (bytes : Bytes)
  deriving DecidableEq, Repr

namespace Content

/-- How the content travels. -/
def encoding : Content → Encoding
  | text _ => .text
  | binary _ => .binary

/-- The bytes of the content. -/
def bytes : Content → Bytes
  | text s => Text.Utf8.bytes s
  | binary b => b

/-- The characters of text. -/
def text? : Content → Option String
  | text s => some s
  | binary _ => none

/-- The bytes of what is not text. -/
def binary? : Content → Option Bytes
  | text _ => none
  | binary b => some b

end Content

/-- A file of a snapshot. -/
structure Entry where
  path : String
  content : Content
  deriving DecidableEq, Repr

namespace Entry

/-- How the content travels. -/
def encoding (e : Entry) : Encoding := e.content.encoding

/-- The bytes of the content. -/
def bytes (e : Entry) : Bytes := e.content.bytes

/-- The name of the file in its directory. -/
def name (e : Entry) : String := Path.name e.path

/-- The entry under the normal form of its path. -/
def normalized (e : Entry) : Entry := { e with path := Path.normalize e.path }

/-- A text file, under the normal form of a path. -/
def ofText (path s : String) : Entry := ⟨Path.normalize path, .text s⟩

/-- A file of bytes, under the normal form of a path. -/
def ofBytes (path : String) (b : Bytes) : Entry := ⟨Path.normalize path, .binary b⟩

/-- The digest of the bytes of the content. -/
def digest (e : Entry) : String := Sha256.hex e.bytes

/-! ## The value that stands for an entry -/

/-- Bytes written as a text of symbols. -/
def symbols : Json.Decoder Bytes := fun origin d ↦ do
  let s ← Json.string origin d
  match Text.Base64.decode (Text.Utf8.bytes s) with
  | .ok b => .ok b
  | .error fault => .error (.refused fault.message)

/-- The kinds of entries by their tag. -/
def variants : List (Json.Tagged Entry) :=
  [⟨"text", ["path", "content"], fun r ↦
      (fun path s ↦ ⟨path, .text s⟩) <$> r.required "path" Json.string
        <*> r.required "content" Json.string⟩,
   ⟨"binary", ["path", "content"], fun r ↦
      (fun path b ↦ ⟨path, .binary b⟩) <$> r.required "path" Json.string
        <*> r.required "content" symbols⟩]

/-- The words for the parts of a kind of entry. -/
def describeVariant (v : Json.Tagged Entry) : String :=
  "struct variant FileEntry::" ++ (if v.name = "text" then "Text" else "Binary") ++
    " with 2 elements"

instance : Json.Wire Entry where
  encode e := .object
    [("encoding", Json.Wire.encode e.encoding), ("path", .text e.path),
     ("content", match e.content with
       | .text s => .text s
       | .binary b => .text (String.ofList (Text.Base64.encode b)))]
  decode := Json.tagged "FileEntry" "encoding" variants describeVariant

end Entry
end FirmwareLane
