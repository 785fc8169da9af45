import FirmwareLane.Files.Basic
import FirmwareLane.Text.Numeral

/-!
# Sandboxes

Every run has a directory of its own below the work root.  Its name is made of the identifier of the
request, as far as that is safe in a name, of the time and of a number that no other sandbox has.
-/

set_option autoImplicit false
namespace FirmwareLane
namespace Sandbox

/-- The greatest number of characters of an identifier that go into a name. -/
def greatestIdentifier : Nat := 64

/-- A character that is safe in a name, in place of any. -/
def safeChar (c : Char) : Char := if c.isAlphanum || c = '-' || c = '_' then c else '_'

/-- The part of a name that an identifier gives. -/
def safeIdentifier (requestId : String) : String :=
  let safe := (requestId.toList.map safeChar).take greatestIdentifier
  if safe.isEmpty then "request" else String.ofList safe

open Text.Numeral (decimal)

/-- The name of a sandbox. -/
def name (requestId : String) (nanoseconds number : Nat) : String :=
  safeIdentifier requestId ++ "-" ++ decimal nanoseconds ++ "-" ++ decimal number

/-- Why a sandbox was not made. -/
structure Fault where
  path : String
  fault : Files.Fault
  deriving DecidableEq, Repr

/-- The wording of a fault. -/
def Fault.message (f : Fault) : String :=
  "failed to create sandbox " ++ f.path ++ ": " ++ f.fault.message

/-- Makes a sandbox of a name below a work root, and gives its path. -/
def create (workRoot name : String) : Files.Action Fault String := do
  let path := Path.below workRoot name
  Files.describing (Fault.mk path) do
    Files.createAll workRoot
    Files.makeDirectory path
  return path

/-- The files without a sandbox, or as they are if it cannot be removed. -/
def remove (path : String) (fs : Files) : Files := (Action.perform (Files.removeAll path) fs).2

end Sandbox
end FirmwareLane
