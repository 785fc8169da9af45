import FirmwareLane.Json.Basic
import FirmwareLane.Number.Shortest
import FirmwareLane.Text.Quoted

/-!
# Why a document has no value of a type

The faults that a decoder finds in a document, and their wording.
-/

set_option autoImplicit false
namespace FirmwareLane
namespace Json

/-- What stands in a document where something else is wanted. -/
inductive Found where
  | null
  | bool (b : Bool)
  | integer (n : Int)
  | float (x : Binary64)
  | text (s : String)
  | sequence
  | map
  deriving DecidableEq, Repr

/-- A name between grave accents. -/
def graved (name : String) : String := "\x60" ++ name ++ "\x60"

/-- The wording of what was found. -/
def Found.describe : Found → String
  | .null => "null"
  | .bool true => "boolean " ++ graved "true"
  | .bool false => "boolean " ++ graved "false"
  | .integer n => "integer " ++ graved (Text.Numeral.integer n)
  | .float x => "floating point " ++ graved (String.ofList x.render)
  | .text s => "string " ++ Text.quoted s
  | .sequence => "sequence"
  | .map => "map"

/-- A fault of a document. -/
inductive Fault where
  /-- The text is no JSON, or goes on behind its value. -/
  | malformed
  | missingField (name : String)
  | duplicateField (name : String)
  /-- The name is none of the known ones. -/
  | unknownVariant (name : String) (known : List String)
  | invalidType (found : Found) (wanted : String)
  /-- The integer does not fit the type. -/
  | outOfRange (n : Int) (wanted : String)
  /-- A variant given as an object must be its only member. -/
  | notSingle
  /-- A sequence has too few or too many items. -/
  | invalidLength (length : Nat) (wanted : String)
  /-- The values are of their types and break a rule of the whole. -/
  | refused (reason : String)
  deriving DecidableEq, Repr

/-- The names between grave accents that one of is expected. -/
def oneOf : List String → String
  | [] => ""
  | [a] => graved a
  | [a, b] => graved a ++ " or " ++ graved b
  | names => "one of " ++ String.intercalate ", " (names.map graved)

/-- The wording of a fault.  All malformed texts are described by the same mark. -/
def Fault.message : Fault → String
  | .malformed => "<syntax>"
  | .missingField name => "missing field " ++ graved name
  | .duplicateField name => "duplicate field " ++ graved name
  | .unknownVariant name known => "unknown variant " ++ graved name ++ ", expected " ++ oneOf known
  | .invalidType found wanted => "invalid type: " ++ found.describe ++ ", expected " ++ wanted
  | .outOfRange n wanted =>
    "invalid value: integer " ++ graved (Text.Numeral.integer n) ++ ", expected " ++ wanted
  | .notSingle => "invalid value: map, expected map with a single key"
  | .invalidLength length wanted =>
    "invalid length " ++ Text.Numeral.decimal length ++ ", expected " ++ wanted
  | .refused reason => reason

end Json
end FirmwareLane
