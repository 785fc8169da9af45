import FirmwareLane.Text.Blank
import FirmwareLane.Assembly.Fault

/-!
# Lines of a source text

What a single line declares: any number of labels, and then at most one instruction, given by its
name and the texts of its operands.  Comments are cut off first, so no mark in a comment has a
meaning.  A directive that only repeats what a flat program is anyway is accepted and declares
nothing.
-/

set_option autoImplicit false
namespace FirmwareLane
namespace Assembly

/-! ## Labels -/

/-- A character that an identifier may begin with. -/
def isIdentifierStart (c : Char) : Bool :=
  c.isAlpha || c == '_' || c == '.' || c == '$'

/-- A character that an identifier may go on with. -/
def isIdentifierPart (c : Char) : Bool :=
  c.isAlphanum || c == '_' || c == '.' || c == '$'

/-- Identifiers: letters, digits, `_`, `.` and `$`, and no digit first. -/
def isIdentifier : List Char → Bool
  | [] => false
  | c :: rest => isIdentifierStart c && rest.all isIdentifierPart

/-- What follows the first occurrence of a character is shorter than the text. -/
theorem length_lt_of_cutAt? {mark : Char} {s before after : List Char}
    (h : Text.cutAt? mark s = some (before, after)) : after.length < s.length := by
  induction s generalizing before with
  | nil => simp [Text.cutAt?] at h
  | cons c rest ih =>
    simp only [Text.cutAt?] at h
    split at h
    · simp only [Option.some.injEq, Prod.mk.injEq] at h
      simp [h.2]
    · simp only [Option.map_eq_some_iff, Prod.mk.injEq, Prod.exists] at h
      obtain ⟨b, a, hcut, -, rfl⟩ := h
      exact Nat.lt_succ_of_lt (ih hcut)

theorem length_trim_le (s : List Char) : (Text.trim s).length ≤ s.length := by
  have h : ∀ t : List Char, (t.dropWhile Text.isBlank).length ≤ t.length :=
    fun t ↦ (List.dropWhile_sublist _).length_le
  simp only [Text.trim, Text.trimEnd, Text.trimStart, List.length_reverse]
  exact Nat.le_trans (h _) (by simpa using h s)

/-- The labels at the front of a text without surrounding blanks, and what follows them.  A colon
behind anything but an identifier ends the labels. -/
def peelLabels (s : List Char) : List String × List Char :=
  match _h : Text.cutAt? ':' s with
  | none => ([], s)
  | some (before, after) =>
    let name := Text.trim before
    if isIdentifier name then
      let (labels, rest) := peelLabels (Text.trim after)
      (String.ofList name :: labels, rest)
    else ([], s)
termination_by s.length
decreasing_by exact Nat.lt_of_le_of_lt (length_trim_le _) (length_lt_of_cutAt? _h)

/-! ## Comments, directives and operands -/

/-- The text up to the first comment mark: `#`, `;` or `//`. -/
def uncommented : List Char → List Char
  | [] => []
  | '/' :: '/' :: _ => []
  | c :: rest => if c = '#' ∨ c = ';' then [] else c :: uncommented rest

/-- Whether a directive, with the text after it, says no more than that the program is one flat
text section. -/
def isVoidDirective (name : String) (arguments : List Char) : Bool :=
  name == ".text" || name == ".globl" || name == ".global" ||
    (name == ".section" && arguments == ".text".toList)

/-- The operands in a text without surrounding blanks: what stands between its commas. -/
def operandTexts (s : List Char) : List (List Char) :=
  if s.isEmpty then [] else (Text.splitOn ',' s).map Text.trim

/-! ## Whole lines -/

/-- An instruction as it is written: its name in lower case and its operands. -/
structure Written where
  name : String
  operands : List String
  deriving DecidableEq, Repr

/-- What a line declares. -/
structure Line where
  labels : List String
  instruction : Option Written
  deriving DecidableEq, Repr

/-- The instruction in a text that starts with no label and has no surrounding blanks. -/
def Written.read? (s : List Char) : Except Fault (Option Written) :=
  if s.isEmpty then .ok none
  else
    let name := String.ofList ((s.takeWhile fun c ↦ !Text.isBlank c).map Char.toLower)
    let tail := Text.trim (s.dropWhile fun c ↦ !Text.isBlank c)
    if name.toList.head? = some '.' then
      if isVoidDirective name tail then .ok none else .error (.unsupportedDirective name)
    else
      let operands := operandTexts tail
      if operands.any List.isEmpty then .error (.emptyOperand (String.ofList s))
      else .ok (some ⟨name, operands.map String.ofList⟩)

/-- What a line of a source text declares. -/
def Line.read (text : List Char) : Except Fault Line := do
  let (labels, rest) := peelLabels (Text.trim (uncommented text))
  return ⟨labels, ← Written.read? rest⟩

end Assembly
end FirmwareLane
