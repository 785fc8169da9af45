import FirmwareLane.Files.Basic
import FirmwareLane.Json.Decoder
import FirmwareLane.Text.Blank
import FirmwareLane.Toml.Table

/-!
# Configurations

A configuration is a record that is read from a TOML document.  Every setting has a default, and
settings nobody knows are ignored.  `Configuration.read` reads a document and then checks the values
of the settings against each other; `Configuration.load` reads a file.
-/

set_option autoImplicit false
namespace FirmwareLane
namespace Configuration

/-- Why there is no configuration. -/
inductive Fault where
  /-- The file cannot be read. -/
  | files (path : String) (fault : Files.Fault)
  /-- The document is no TOML, or a setting is not of its type. -/
  | unreadable
  /-- The value of a setting makes no sense. -/
  | invalidValue (setting reason : String)
  deriving DecidableEq, Repr

/-- The wording of a fault. -/
def Fault.message : Fault → String
  | .files path fault => "Failed to read config file " ++ path ++ ": " ++ fault.message
  | .unreadable => "Failed to parse TOML"
  | .invalidValue setting reason => "Invalid value for '" ++ setting ++ "': " ++ reason

/-- The fault of a setting that must not be zero. -/
def notPositive (setting : String) : Fault := .invalidValue setting "must be positive"

/-- The first of some faults that applies. -/
def firstFault {α : Type} (a : α) : List (Bool × Fault) → Except Fault α
  | [] => .ok a
  | (applies, fault) :: rest => if applies then .error fault else firstFault a rest

/-- The configuration of a document, given how its settings are checked. -/
def read {α : Type} [Json.Wire α] (check : α → Except Fault α) (document : String) :
    Except Fault α :=
  match Toml.parse? document with
  | none => .error .unreadable
  | some table =>
    match Json.Wire.ofSetting table with
    | .error _ => .error .unreadable
    | .ok a => check a

/-- The configuration in a file, given how a document is read. -/
def load {α : Type} (read : String → Except Fault α) (fs : Files) (path : String) :
    Except Fault α :=
  match fs.readText path with
  | .ok document => read document
  | .error fault => .error (.files path fault)

end Configuration
end FirmwareLane
