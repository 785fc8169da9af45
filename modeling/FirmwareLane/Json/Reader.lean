import FirmwareLane.Json.Document
import FirmwareLane.Json.Token

/-!
# Reading JSON text

A document is built from tokens in one pass, with a stack of the arrays and objects that are still
open.  Where the tokens stop making sense the open containers are given up as they stand, the inner
ones as the last parts of the outer ones.

`Document.read` gives the document of a text and whether anything but blanks follows it.
-/

set_option autoImplicit false
namespace FirmwareLane
namespace Json

/-- An array or object that is still open, with its parts in reverse.  For an object, the name whose
value is being read may be known. -/
inductive Open where
  | array (items : List Document)
  | object (members : List (Option String × Document)) (name : Option (Option String))

/-- What may come next. -/
inductive Expected where
  /-- A value. -/
  | value
  /-- The first item of an array, or its end. -/
  | firstItem
  /-- The first member of an object, or its end. -/
  | firstMember
  /-- The name of a member. -/
  | name
  /-- The colon behind a name. -/
  | colon
  /-- A comma, or the end of the innermost container. -/
  | separator

/-- The number of arrays and objects that a reader follows into each other. -/
def greatestDepth : Nat := 127

namespace Open

/-- A container as a document, when as many containers are open around it. -/
def document (depth : Nat) (closed : Bool) (container : Open) : Document :=
  let inner := match container with
    | .array items => Document.array items.reverse closed
    | .object members _ => Document.object members.reverse closed
  if depth < greatestDepth then inner else .deep inner

/-- A container with a value as its next part. -/
def add (value : Document) : Open → Open
  | .array items => .array (value :: items)
  | .object members (some name) => .object ((name, value) :: members) none
  | .object members none => .object members none

/-- The document of containers that are given up.  A name that is waiting for its value gets a
broken one. -/
def abandon : List Open → Option Document → Document
  | [], some inner => inner
  | [], none => .broken
  | container :: rest, inner =>
    let complete := match container, inner with
      | container, some value => container.add value
      | .object members (some name), none => .object ((name, .broken) :: members) none
      | container, none => container
    abandon rest (some (complete.document rest.length false))

end Open

/-- What a token does to the open containers. -/
inductive Step where
  /-- The document goes on. -/
  | more (stack : List Open) (expected : Expected)
  /-- The document is complete. -/
  | complete (document : Document)
  /-- The token makes no sense here. -/
  | broken

namespace Step

/-- A value that is complete, as the next part of the innermost open container or as the whole
document. -/
def give (value : Document) : List Open → Step
  | [] => complete value
  | container :: outer => more (container.add value :: outer) .separator

/-- The end of the innermost open container. -/
def close : List Open → Step
  | [] => broken
  | container :: outer => give (container.document outer.length true) outer

/-- A token where a value may begin. -/
def beginValue (stack : List Open) : Token → Step
  | .openArray => more (.array [] :: stack) .firstItem
  | .openObject => more (.object [] none :: stack) .firstMember
  | .null => give .null stack
  | .bool b => give (.bool b) stack
  | .integer n => give (.integer n) stack
  | .float x => give (.float x) stack
  | .hugeNumber => give .hugeNumber stack
  | .text (some s) => give (.text s) stack
  | .text none => give .garbledText stack
  | _ => broken

/-- A token where the name of a member should stand. -/
def beginMember : List Open → Token → Step
  | .object members _ :: outer, .text name => more (.object members (some name) :: outer) .colon
  | _, _ => broken

/-- A token behind a part of a container. -/
def separate : List Open → Token → Step
  | .array items :: outer, .comma => more (.array items :: outer) .value
  | .object members name :: outer, .comma => more (.object members name :: outer) .name
  | .array items :: outer, .closeArray => close (.array items :: outer)
  | .object members name :: outer, .closeObject => close (.object members name :: outer)
  | _, _ => broken

/-- What a token does where something is expected. -/
def of (stack : List Open) (expected : Expected) (token : Token) : Step :=
  match expected with
  | .value => beginValue stack token
  | .firstItem => if token = .closeArray then close stack else beginValue stack token
  | .firstMember => if token = .closeObject then close stack else beginMember stack token
  | .name => beginMember stack token
  | .colon => if token = .colon then more stack .value else broken
  | .separator => separate stack token

end Step

/-- The document of tokens, and whether tokens follow it, given the open containers and what may
come next. -/
def build : List Open → Expected → List Token → Document × Bool
  | stack, _, [] => (Open.abandon stack none, false)
  | stack, expected, token :: rest =>
    match Step.of stack expected token with
    | .more stack expected => build stack expected rest
    | .complete document => (document, !rest.isEmpty)
    | .broken => (Open.abandon stack none, false)

/-- The document of a text, and whether anything but blanks follows it. -/
def readGlyphs (s : List Text.Glyph) : Document × Bool :=
  build [] .value (Token.scan s)

/-- The document of a string, and whether anything but blanks follows it. -/
def readText (s : String) : Document × Bool :=
  readGlyphs (s.toList.map some)

/-- The document of bytes, and whether anything but blanks follows it. -/
def readBytes (b : Text.Bytes) : Document × Bool :=
  readGlyphs (Text.Utf8.glyphs b)

/-- The value of a text that holds one value and nothing else. -/
def parse? (s : String) : Option Json :=
  match readText s with
  | (document, false) => document.value?
  | (_, true) => none

end Json
end FirmwareLane
