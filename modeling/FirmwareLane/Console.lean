/-!
# What a command prints

A command ends with an exit code and with what it printed to either of its outputs.
-/

set_option autoImplicit false
namespace FirmwareLane

/-- What a command prints and how it ends. -/
structure Console where
  code : Nat
  stdout : String
  stderr : String
  deriving DecidableEq, Repr

namespace Console

/-- A command that prints something and ends well. -/
def done (stdout : String) : Console := ⟨0, stdout, ""⟩

/-- A command that fails. -/
def failed (code : Nat) (stderr : String) : Console := ⟨code, "", stderr⟩

end Console
end FirmwareLane
