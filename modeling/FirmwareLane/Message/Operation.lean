import FirmwareLane.Json.Decoder

/-!
# Operations

The units of remote work: a command line for a shell, or the reset of the permissions of all files.
Operations are carried out strictly in order.
-/

set_option autoImplicit false
namespace FirmwareLane

open Json (Wire)

/-- The shell that a command line is meant for. -/
inductive Interpreter where
  | posix
  | native
  deriving DecidableEq, Repr

namespace Interpreter

/-- The interpreters by name. -/
def names : List (String × Interpreter) := [("posix", .posix), ("native", .native)]

/-- The name of an interpreter. -/
def name : Interpreter → String
  | posix => "posix"
  | native => "native"

instance : Wire Interpreter where
  encode i := .text i.name
  decode := Json.variant names

end Interpreter

/-- A unit of remote work. -/
inductive Operation where
  /-- A command line for a shell. -/
  | shell (interpreter : Interpreter) (commandLine : String)
  /-- Every file and directory gets the permissions that let it be run or entered. -/
  | reset
  deriving DecidableEq, Repr

namespace Operation

/-- The command line, if there is one. -/
def commandLine? : Operation → Option String
  | shell _ c => some c
  | reset => none

/-- The operation for a reader of messages. -/
def describe : Operation → String
  | shell .posix c => "sh: " ++ c
  | shell .native c => "native: " ++ c
  | reset => "environment reset"

/-- The kinds of operations by their tag. -/
def variants : List (Json.Tagged Operation) :=
  [⟨"shell_invocation", ["interpreter", "command_line"], fun r ↦
      shell <$> r.required "interpreter" Wire.decode <*> r.required "command_line" Json.string⟩,
   ⟨"environment_reset", [], fun _ ↦ pure reset⟩]

/-- The words for the parts of a kind of operation. -/
def describeVariant (_ : Json.Tagged Operation) : String :=
  "struct variant Operation::ShellInvocation with 2 elements"

instance : Wire Operation where
  encode
    | shell i c => .object
      [("kind", .text "shell_invocation"), ("interpreter", Wire.encode i),
        ("command_line", .text c)]
    | reset => .object [("kind", .text "environment_reset")]
  decode := Json.tagged "Operation" "kind" variants describeVariant

end Operation
end FirmwareLane
