import FirmwareLane.Shell.Command

/-!
# Input of a shell

A shell reads text from the front.  While it reads, names that stand for other texts are replaced
where a command may begin, and the lines that are the input of a command are passed over behind the
line on which they are asked for.

A reader is a `Parse`: it fails with the reason why the text makes no sense, and where it fails tells
the line of the fault.
-/

set_option autoImplicit false
namespace FirmwareLane
namespace Shell

/-- Why a command line makes no sense. -/
inductive SyntaxFault where
  | unterminatedQuote
  | unterminatedBackquote
  | missingBrace
  | missingParentheses
  | badFunctionName
  | badLoopVariable
  /-- Something stands where it must not, where something else may be wanted. -/
  | unexpected (found : String) (wanted : Option String)
  deriving DecidableEq, Repr

/-- The wording of a fault. -/
def SyntaxFault.message : SyntaxFault → String
  | .unterminatedQuote => "Syntax error: Unterminated quoted string"
  | .unterminatedBackquote => "Syntax error: EOF in backquote substitution"
  | .missingBrace => "Syntax error: Missing '\x7d'"
  | .missingParentheses => "Syntax error: Missing '))'"
  | .badFunctionName => "Syntax error: Bad function name"
  | .badLoopVariable => "Syntax error: Bad for loop variable"
  | .unexpected found none => "Syntax error: " ++ found ++ " unexpected"
  | .unexpected found (some wanted) =>
    "Syntax error: " ++ found ++ " unexpected (expecting " ++ wanted ++ ")"

/-- Text that is still to be read. -/
structure Input where
  rest : Chars
  /-- The number of the line at the front. -/
  line : Nat
  /-- The names that stand for other texts. -/
  aliases : List (Chars × Chars)
  /-- The names that were replaced, with the length of the text behind what they stand for. -/
  replaced : List (Chars × Nat)
  /-- The length of the text behind the next word that may be replaced though it is no command. -/
  goesOn : Option Nat
  /-- The length of the text behind the lines that follow this line as input of its commands. -/
  behindLines : Option Nat

/-- A text of which nothing is read. -/
def Input.ofText (text : Chars) (line : Nat) (aliases : List (Chars × Chars)) : Input :=
  ⟨text, line, aliases, [], none, none⟩

/-- A reader of input. -/
abbrev Parse (α : Type) := ExceptT SyntaxFault (StateM Input) α

/-- Whether a character ends a word outside quotation marks. -/
def isMeta (c : Char) : Bool := " \t\n;&|<>()".toList.contains c

namespace Parse

/-! ## Moving on -/

/-- The text that is still to be read. -/
def rest : Parse Chars := do return (← get).rest

/-- Passes over some characters. -/
def advance (n : Nat) : Parse Unit :=
  modify fun i ↦
    { i with rest := i.rest.drop n, line := i.line + (i.rest.take n).count '\n' }

/-- Passes over a line end, and over the lines behind it that are input of commands. -/
def newline : Parse Unit := do
  advance 1
  let i ← get
  if let some length := i.behindLines then
    advance (i.rest.length - length)
    modify fun i ↦ { i with behindLines := none }

/-- Passes over backslashes that stand before line ends; fuel for one step per line. -/
def joinLines : Nat → Parse Unit
  | 0 => return
  | fuel + 1 => do
    match ← rest with
    | '\\' :: '\n' :: _ => do
      advance 2
      joinLines fuel
    | _ => return

/-- The text that is still to be read, without line ends behind a backslash at its front. -/
def joined : Parse Chars := do
  match ← rest with
  | '\\' :: '\n' :: s => do
    joinLines (s.length + 1)
    rest
  | s => return s

/-- The text behind blanks, joined lines and a comment; fuel for one step per character. -/
def afterBlanks : Nat → Chars → Chars
  | 0, s => s
  | fuel + 1, s =>
    match s with
    | ' ' :: rest => afterBlanks fuel rest
    | '\t' :: rest => afterBlanks fuel rest
    | '\\' :: '\n' :: rest => afterBlanks fuel rest
    | '#' :: rest => rest.dropWhile (· != '\n')
    | s => s

/-- Passes over blanks and a comment. -/
def skipBlanks : Parse Unit := do
  match ← rest with
  | c :: s =>
    if c = ' ' || c = '\t' || c = '\\' || c = '#' then
      advance (s.length + 1 - (afterBlanks (s.length + 2) (c :: s)).length)
  | [] => return

/-- Passes over blanks, comments and line ends; fuel for one step per line. -/
def skipLines : Nat → Parse Unit
  | 0 => skipBlanks
  | fuel + 1 => do
    skipBlanks
    match ← rest with
    | '\n' :: _ => do
      newline
      skipLines fuel
    | _ => return

/-- Passes over blanks, comments and line ends. -/
def skipNewlines : Parse Unit := do skipLines ((← rest).length + 1)

/-! ## Names that stand for other texts -/

/-- The word at the front as it is written. -/
def rawWord (s : Chars) : String := String.ofList (s.takeWhile fun c ↦ !isMeta c)

/-- Replaces the word at the front as long as it is a name that stands for another text; fuel for
one step per name. -/
def replaceNames : Nat → Parse Unit
  | 0 => return
  | fuel + 1 => do
    let i ← get
    let word := i.rest.takeWhile fun c ↦ !isMeta c
    let length := i.rest.length
    let isUsed := i.replaced.any fun (name, behind) ↦ name = word && behind < length
    match (if isUsed then none else i.aliases.lookup word) with
    | none => return
    | some text => do
      let behind := length - word.length
      let last := text.getLast?
      let goesOn := if last = some ' ' || last = some '\t' then some behind else i.goesOn
      set { i with
        rest := text ++ i.rest.drop word.length
        replaced := (word, behind) :: i.replaced
        goesOn }
      skipBlanks
      replaceNames fuel

/-- Passes over blanks, and replaces the word behind them if it is a name that stands for another
text. -/
def atCommand : Parse Unit := do
  skipBlanks
  let i ← get
  unless i.aliases.isEmpty do replaceNames (i.aliases.length + 1)

/-- Passes over blanks, and replaces the word behind them if what stands before it asks for that. -/
def atArgument : Parse Unit := do
  skipBlanks
  let i ← get
  match i.goesOn with
  | none => return
  | some behind =>
    if i.rest.length ≤ behind then
      set { i with goesOn := none }
      replaceNames (i.aliases.length + 1)

/-! ## Marks and reserved words -/

/-- Words that are not the name of a command. -/
def reservedWords : List String :=
  ["if", "then", "elif", "else", "fi", "while", "until", "for", "do", "done", "case", "esac", "in",
   "!", "\x7b", "\x7d"]

/-- Names of commands that functions cannot have. -/
def specialNames : List String :=
  [":", ".", "break", "continue", "eval", "exec", "exit", "export", "local", "readonly", "return",
   "set", "shift", "times", "trap", "unset"]

/-- Words that end a list of commands. -/
def closingWords : List String := ["then", "elif", "else", "fi", "do", "done", "esac", "\x7d"]

/-- What stands at the front of a text, for a message. -/
def token (s : Chars) : String :=
  match s with
  | [] => "end of file"
  | '\n' :: _ => "newline"
  | ';' :: ';' :: _ => "\";;\""
  | '&' :: '&' :: _ => "\"&&\""
  | '|' :: '|' :: _ => "\"||\""
  | c :: _ =>
    if c = ';' ∨ c = '&' ∨ c = '|' ∨ c = '(' ∨ c = ')' then "\"" ++ String.ofList [c] ++ "\""
    else if c = '<' ∨ c = '>' then "redirection"
    else if reservedWords.contains (rawWord s) then "\"" ++ rawWord s ++ "\""
    else "word"

/-- Fails on the line behind a line end, if there is one at the front. -/
def failBehindLine {α : Type} (fault : SyntaxFault) : Parse α := do
  if (← rest).head? = some '\n' then newline
  throw fault

/-- Fails because of what stands at the front. -/
def unexpected {α : Type} (wanted : Option String) : Parse α := do
  failBehindLine (.unexpected (token (← rest)) wanted)

/-- Whether the front ends a list of commands. -/
def atEnd : Parse Bool := do
  match ← rest with
  | [] => return true
  | ')' :: _ => return true
  | ';' :: ';' :: _ => return true
  | s => return closingWords.contains (rawWord s)

/-- Passes over a reserved word that must be there. -/
def expect (word : String) : Parse Unit := do
  skipNewlines
  if rawWord (← rest) = word then advance word.length
  else unexpected (some ("\"" ++ word ++ "\""))

/-- Passes over a reserved word if it is there. -/
def accept (word : String) : Parse Bool := do
  if rawWord (← rest) = word then
    advance word.length
    return true
  else return false

end Parse
end Shell
end FirmwareLane
