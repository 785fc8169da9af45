import FirmwareLane.Json.Basic

/-!
# Documents: JSON text as far as it makes sense

A document is what a reader learns from JSON text when it goes from left to right: the values that
can be told, up to the first place where the text stops being JSON.  Keeping the part before that
place lets a consumer of the values complain about the first thing that is wrong, be it a value it
did not want or the broken text itself.

Some text can be skipped though it stands for no value: a number too large to represent, a quoted
text that encodes no characters, and nesting beyond the depth a reader follows.
-/

set_option autoImplicit false
namespace FirmwareLane

/-- JSON text up to the first place where it is broken. -/
inductive Document where
  | null
  | bool (b : Bool)
  | integer (n : Int)
  | float (x : Binary64)
  /-- A number too large for any representation. -/
  | hugeNumber
  | text (s : String)
  /-- A quoted text that encodes no sequence of characters. -/
  | garbledText
  /-- The items that could be told; the array is closed if the text is not broken after them. -/
  | array (items : List Document) (closed : Bool)
  /-- The members that could be told, under names unless those are garbled; the object is closed if
  the text is not broken after them. -/
  | object (members : List (Option String × Document)) (closed : Bool)
  /-- An array or object nested too deep to be read. -/
  | deep (inner : Document)
  /-- The text is broken where this value should begin. -/
  | broken
  deriving Repr

namespace Document

mutual

/-- Whether the text of a value can be passed over by a reader that does not want the value. -/
def isSkippable : Document → Bool
  | broken => false
  | array items closed => allSkippable items && closed
  | object members closed => allMembersSkippable members && closed
  | deep inner => inner.isSkippable
  | _ => true

/-- Whether all items can be passed over. -/
def allSkippable : List Document → Bool
  | [] => true
  | item :: rest => item.isSkippable && allSkippable rest

/-- Whether all members can be passed over. -/
def allMembersSkippable : List (Option String × Document) → Bool
  | [] => true
  | (_, value) :: rest => value.isSkippable && allMembersSkippable rest

end

mutual

/-- The value of a document, if all of it can be read.  The members of objects are sorted, and the
last of equally named ones stays. -/
def value? : Document → Option Json
  | null => some .null
  | bool b => some (.bool b)
  | integer n => some (.integer n)
  | float x => some (.float x)
  | text s => some (.text s)
  | array items true => (values? items).map .array
  | object members true => (memberValues? members).map fun m ↦ .object (Keyed.ofList m)
  | _ => none

/-- The values of items. -/
def values? : List Document → Option (List Json)
  | [] => some []
  | item :: rest =>
    match item.value?, values? rest with
    | some v, some vs => some (v :: vs)
    | _, _ => none

/-- The values of members. -/
def memberValues? : List (Option String × Document) → Option (List (String × Json))
  | [] => some []
  | (some name, value) :: rest =>
    match value.value?, memberValues? rest with
    | some v, some vs => some ((name, v) :: vs)
    | _, _ => none
  | (none, _) :: _ => none

end

mutual

/-- The document of a value. -/
def ofJson : Json → Document
  | .null => null
  | .bool b => bool b
  | .integer n => integer n
  | .float x => float x
  | .text s => text s
  | .array items => array (ofItems items) true
  | .object members => object (ofMembers members) true

/-- The documents of items. -/
def ofItems : List Json → List Document
  | [] => []
  | item :: rest => ofJson item :: ofItems rest

/-- The documents of members. -/
def ofMembers : List (String × Json) → List (Option String × Document)
  | [] => []
  | (name, value) :: rest => (some name, ofJson value) :: ofMembers rest

end

end Document
end FirmwareLane
