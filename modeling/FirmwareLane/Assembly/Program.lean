import FirmwareLane.Assembly.Statement

/-!
# Assembling a program

A program is laid out first: every line is read, every statement gets the address that the sizes
before it add up to, and every label gets the address of what follows it.  Only then are the
statements resolved, each under the whole table of labels, so a branch may go either way.

`assemble` gives the words of a source text in order, or the first failure: those of the layout
come before those of the statements.
-/

set_option autoImplicit false
namespace FirmwareLane
namespace Assembly

/-- A statement at its address. -/
structure Placed where
  address : Word
  statement : Statement
  deriving DecidableEq, Repr

/-- The statements of a program at their addresses, and the addresses of its labels. -/
structure Layout where
  placed : List Placed
  labels : Labels
  deriving DecidableEq, Repr

/-- The result of a step on a line, with a fault reported at that line. -/
def onLine {α : Type} (line : Nat) (result : Except Fault α) : Except Failure α :=
  result.mapError fun fault ↦ ⟨line, fault⟩

/-- The labels with more of them declared at an address. -/
def declare (address : Word) : Labels → List String → Except Fault Labels
  | labels, [] => .ok labels
  | labels, name :: rest =>
    if (labels.lookup name).isSome then .error (.duplicateLabel name)
    else declare address ((name, address) :: labels) rest

/-- The statement that an instruction on a line is. -/
def Written.statement (line : Nat) (written : Written) : Statement :=
  ⟨line, written.name, written.operands⟩

namespace Layout

/-- The layout of the lines from one on, where the first of them has a number and an address and
the lines before it declared labels.  Addresses count modulo the size of the address space. -/
def ofLines (line : Nat) (address : Word) (labels : Labels) :
    List (List Char) → Except Failure Layout
  | [] => .ok ⟨[], labels⟩
  | text :: rest => do
    let read ← onLine line (Line.read text)
    let labels ← onLine line (declare address labels read.labels)
    match read.instruction with
    | none => ofLines (line + 1) address labels rest
    | some written =>
      let statement := written.statement line
      let size ← onLine line statement.size
      let layout ← ofLines (line + 1) (address + BitVec.ofNat 32 (4 * size)) labels rest
      return { layout with placed := ⟨address, statement⟩ :: layout.placed }

/-- The layout of a source text, from address zero. -/
def ofSource (source : String) : Except Failure Layout :=
  ofLines 1 0 [] (Text.lines source.toList)

/-- The words of a statement in a layout. -/
def wordsOf (layout : Layout) (placed : Placed) : Except Failure (List Word) :=
  onLine placed.statement.line do
    let resolved ← placed.statement.instructions layout.labels placed.address
    return resolved.map Instruction.encode

/-- The words of a layout, in the order of its statements. -/
def words (layout : Layout) : Except Failure (List Word) := do
  return (← layout.placed.mapM layout.wordsOf).flatten

end Layout

/-- The words of a source text. -/
def assemble (source : String) : Except Failure (List Word) := do
  (← Layout.ofSource source).words

end Assembly
end FirmwareLane
