import FirmwareLane.Shell.Condition
import FirmwareLane.Shell.Format
import FirmwareLane.Shell.Tool.Basic

/-!
# Commands of the shell itself

Commands that a shell carries out itself, because they change it or to be quick: how their words are
read, and those that print, test and leave.
-/

set_option autoImplicit false
namespace FirmwareLane
namespace Shell
namespace Builtin

open Act

/-! ## Words -/

/-- The options at the front of words and the words behind them, given the letters of options
without and with a value; fuel for one step per letter and word. -/
def optionsOf (letters valued : String) : Nat → List (Char × Chars) → List Chars →
    Act (List (Char × Chars) × List Chars)
  | 0, found, words => return (found, words)
  | fuel + 1, found, words =>
    match words with
    | ['-', '-'] :: rest => return (found, rest)
    | ('-' :: c :: more) :: rest =>
      if valued.toList.contains c then
        match more, rest with
        | [], v :: rest => optionsOf letters valued fuel (found ++ [(c, v)]) rest
        | [], [] => fail ("No arg for -" ++ String.ofList [c] ++ " option")
        | more, rest => optionsOf letters valued fuel (found ++ [(c, more)]) rest
      else if letters.toList.contains c then
        let rest := if more.isEmpty then rest else ('-' :: more) :: rest
        optionsOf letters valued fuel (found ++ [(c, [])]) rest
      else fail ("Illegal option -" ++ Chars.string [c])
    | words => return (found, words)

/-- The arguments that words are, given the letters of options without and with a value. -/
def arguments (letters valued : String) (words : List Chars) : Act Arguments := do
  let (options, operands) ← optionsOf letters valued (words.flatten.length + words.length) [] words
  return ⟨options, operands⟩

/-- The words of a command that knows no options. -/
def withoutOptions (words : List Chars) : Act (List Chars) := do
  return (← arguments "" "" words).operands

/-- The greatest number that a command of the shell takes. -/
def greatestCount : Nat := Nat.pow 2 31 - 1

/-- The number that a word stands for; blanks may be around it. -/
def countOf (w : Chars) : Act Nat := do
  let text := w.reverse.dropWhile (fun c ↦ c = ' ' || c = '\t' || c = '\n')
  let fits (n : Int) : Bool := 0 ≤ n && n ≤ greatestCount
  match (integer? text.reverse).filter fits with
  | some n => return n.toNat
  | none => fail ("Illegal number: " ++ w.string)

/-- Gives a value to a variable whose name may be none. -/
def assignNamed (name value : Chars) : Act Unit := do
  if isName name then assign name value else fail (name.string ++ ": bad variable name")

/-- A value between apostrophes, with the apostrophes in it between quotation marks; fuel for one
step per apostrophe. -/
def quoteOnto : Nat → Chars → Chars
  | 0, _ => []
  | fuel + 1, s =>
    let plain := s.takeWhile (· != '\'')
    let rest := s.drop plain.length
    let marks := rest.takeWhile (· == '\'')
    let rest := rest.drop marks.length
    '\'' :: plain ++ '\'' :: if marks.isEmpty then []
      else '"' :: marks ++ '"' :: if rest.isEmpty then [] else quoteOnto fuel rest

/-- A value in quotation marks. -/
def quote (s : Chars) : Chars := quoteOnto (s.length + 1) s

/-! ## Printing -/

/-- Prints its arguments, with their escapes replaced. -/
def echo : Tool := fun words ↦ do
  let (silent, words) := match words with
    | ['-', 'n'] :: rest => (true, rest)
    | words => (false, words)
  let (text, ended) := Format.unescape (joinWith [' '] words)
  say (if silent || ended then text else text ++ ['\n'])
  return 0

/-- Prints its arguments in a form. -/
def printf : Tool := fun words ↦ do
  match ← withoutOptions words with
  | [] => fail "usage: printf format [arg ...]"
  | format :: arguments => do
    let (text, faults) := Format.print format arguments
    say text
    for fault in faults do report fault.message
    return if faults.isEmpty then 0 else if faults.any (·.isInFormat) then 2 else 1

/-! ## Conditions -/

/-- Tells whether a condition holds. -/
def test : Tool := fun words ↦ do
  match Condition.holds (← files) words with
  | .ok holds => return if holds then 0 else 1
  | .error fault => fail fault.message

/-- Tells whether the condition before a closing bracket holds. -/
def bracket : Tool := fun words ↦ do
  if words.getLast? = some [']'] then test words.dropLast else fail "missing ]"

/-! ## Leaving -/

/-- Ends the shell. -/
def exit : Tool := fun words ↦ do
  match words with
  | w :: _ => do Act.exit (← countOf w)
  | [] => throw .exit

/-- Ends a function. -/
def leave : Tool := fun words ↦ do
  match words with
  | w :: _ => do setStatus (← countOf w)
  | [] => pure ()
  throw .leave

/-- Ends loops. -/
def endLoops (goOn : Bool) : Tool := fun words ↦ do
  let n ← match words with
    | w :: _ => countOf w
    | [] => pure 1
  let loops := (← process).loops
  if n = 0 then fail "Illegal number: 0"
  else if loops = 0 then return 0
  else throw (.endLoops (min n loops) goOn)

end Builtin
end Shell
end FirmwareLane
