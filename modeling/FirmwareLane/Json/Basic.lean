import FirmwareLane.Keyed
import FirmwareLane.Number.Binary64

/-!
# JSON values

The values of the data format.  The members of an object keep the order in which they are given;
`Json.sorted` puts the members of every object in the order of their names, with the last of equally
named ones, which is the form of values whose members have no order of their own.
-/

set_option autoImplicit false
namespace FirmwareLane

/-- A JSON value. -/
inductive Json where
  | null
  | bool (b : Bool)
  | integer (n : Int)
  | float (x : Binary64)
  | text (s : String)
  | array (items : List Json)
  | object (members : List (String × Json))
  deriving Repr

namespace Json

/-- The least integer that is kept as one. -/
def leastInteger : Int := -(Nat.pow 2 63)

/-- The greatest integer that is kept as one. -/
def greatestInteger : Int := Nat.pow 2 64 - 1

/-! ## Sorted members -/

mutual

/-- The value with the members of every object in it in the order of their names. -/
def sorted : Json → Json
  | array items => array (sortedItems items)
  | object members => object (Keyed.ofList (sortedValues members))
  | other => other

/-- The values of an array, each sorted. -/
def sortedItems : List Json → List Json
  | [] => []
  | item :: rest => item.sorted :: sortedItems rest

/-- The members of an object, the value of each sorted. -/
def sortedValues : List (String × Json) → List (String × Json)
  | [] => []
  | (name, value) :: rest => (name, value.sorted) :: sortedValues rest

end

/-! ## Access -/

/-- The value of the last member of a name, if the value is an object that has one. -/
def member? (name : String) : Json → Option Json
  | object members => (members.reverse.find? fun m ↦ m.1 == name).map (·.2)
  | _ => none

/-- The natural number of 64 bits that a value is. -/
def natural? : Json → Option Nat
  | integer n => if 0 ≤ n ∧ n ≤ greatestInteger then some n.toNat else none
  | _ => none

/-- The text that a value is. -/
def text? : Json → Option String
  | text s => some s
  | _ => none

/-- A natural number as a value. -/
def nat (n : Nat) : Json := integer n

/-- A text that may be missing, as a value. -/
def optionalText : Option String → Json
  | some s => text s
  | none => null

end Json
end FirmwareLane
