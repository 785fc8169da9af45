import FirmwareLane.Shell.Regex
import FirmwareLane.Shell.Tool.Moving

/-!
# Tools that search text

A tool that prints the lines that match an expression, perhaps with the lines around them.
-/

set_option autoImplicit false
namespace FirmwareLane
namespace Shell
namespace Tool

open Act

/-! ## Expressions -/

/-- The expression that matches a text and nothing else. -/
def fixedText (s : Chars) : Regex := s.foldl (fun r c ↦ .sequence r (.char c)) .empty

/-- What is said of marks of repetitions at the start of extended expressions; fuel for one step per
character.  A mark tells whether only anchors stand before. -/
def startWarnings : Nat → Bool → Chars → List String
  | 0, _, _ => []
  | _, _, [] => []
  | fuel + 1, atStart, c :: rest =>
    let warn (mark : String) : List String := if atStart then [mark ++ " at start of expression"] else []
    match c with
    | '\\' =>
      match rest with
      | d :: rest => startWarnings fuel (atStart && "<>bB\x60'".toList.contains d) rest
      | [] => []
    | '[' =>
      match Regex.bracket rest with
      | .ok (_, rest) => startWarnings fuel false rest
      | .error _ => []
    | '\x7b' =>
      match Regex.bounds true rest with
      | .ok (_, _, rest) => warn "{...}" ++ startWarnings fuel atStart rest
      | .error _ => startWarnings fuel false rest
    | c =>
      if c = '(' || c = '|' then startWarnings fuel true rest
      else if c = '^' || c = '$' then startWarnings fuel atStart rest
      else if c = '*' || c = '+' || c = '?' then
        warn (String.ofList [c]) ++ startWarnings fuel atStart rest
      else startWarnings fuel false rest

/-- An extended expression for one in the notation with classes behind backslashes; fuel for one step
per character. -/
def withoutClasses : Nat → Chars → Chars
  | 0, s => s
  | fuel + 1, s =>
    match s with
    | '\\' :: 'd' :: rest => "[0-9]".toList ++ withoutClasses fuel rest
    | '\\' :: 'D' :: rest => "[^0-9]".toList ++ withoutClasses fuel rest
    | '\\' :: 't' :: rest => '\t' :: withoutClasses fuel rest
    | '\\' :: c :: rest => '\\' :: c :: withoutClasses fuel rest
    | '(' :: '?' :: ':' :: rest => '(' :: withoutClasses fuel rest
    | c :: rest => c :: withoutClasses fuel rest
    | [] => []

/-- What lines are searched for. -/
structure Searched where
  expressions : List Regex
  ignoreCase : Bool
  wholeLine : Bool
  wholeWord : Bool

namespace Searched

/-- The match of an expression that begins at a position and ends at the last one that is fine. -/
def matchAt? (x : Searched) (s : Regex.Subject) (first : Nat) (r : Regex) : Option Nat :=
  let fine (last : Nat) : Bool :=
    (!x.wholeLine || (first = 0 && last = s.text.size)) &&
      (!x.wholeWord || (!(0 < first && s.isWord (first - 1)) && !s.isWord last))
  if r.refers then
    (Regex.matchAt? s r first).bind fun m ↦ if fine m.last then some m.last else none
  else ((Regex.ends s r [first]).filter fine).getLast?

/-- The longest match of the expressions at the first position from one on that has a match; fuel for one
step per position. -/
def searchFrom (x : Searched) (s : Regex.Subject) : Nat → Nat → Option (Nat × Nat)
  | 0, _ => none
  | fuel + 1, first =>
    match x.expressions.filterMap (x.matchAt? s first) with
    | [] => if x.wholeLine then none else searchFrom x s fuel (first + 1)
    | last :: more => some (first, more.foldl max last)

/-- The first match in a line from a position on. -/
def search? (x : Searched) (s : Regex.Subject) (first : Nat) : Option (Nat × Nat) :=
  x.searchFrom s (s.text.size + 1 - first) first

/-- A line that is searched. -/
def subject (x : Searched) (line : Chars) : Regex.Subject := ⟨line.toArray, x.ignoreCase, false⟩

/-- Whether a line has a match. -/
def isIn (x : Searched) (line : Chars) : Bool :=
  if x.wholeLine || x.wholeWord then (x.search? (x.subject line) 0).isSome
  else x.expressions.any fun r ↦ (Regex.search? (x.subject line) r 0).isSome

/-- The texts that match in a line from a position on, with where they begin; fuel for one step per
match. -/
def found (x : Searched) (s : Regex.Subject) : Nat → Nat → List (Nat × Chars)
  | 0, _ => []
  | fuel + 1, first =>
    match x.search? s first with
    | none => []
    | some (a, b) =>
      if a = b then found x s fuel (b + 1) else (a, s.slice a b) :: found x s fuel b

end Searched

/-! ## Options -/

/-- The options of `grep`. -/
def grepOptions : Options :=
  ⟨"EFGPiyvwxcoqsnbHhlLrRazITUuZ0123456789VK?Q", "emfABCdDgON",
    [("extended-regexp", 'E'), ("fixed-strings", 'F'), ("basic-regexp", 'G'), ("perl-regexp", 'P'),
      ("ignore-case", 'i'), ("invert-match", 'v'), ("word-regexp", 'w'), ("line-regexp", 'x'),
      ("count", 'c'), ("only-matching", 'o'), ("quiet", 'q'), ("silent", 'q'),
      ("no-messages", 's'), ("line-number", 'n'), ("byte-offset", 'b'), ("with-filename", 'H'),
      ("no-filename", 'h'), ("files-with-matches", 'l'), ("files-without-match", 'L'),
      ("recursive", 'r'), ("dereference-recursive", 'R'), ("text", 'a'), ("null-data", 'z'),
      ("null", 'Z'), ("initial-tab", 'T'), ("color", 'K'), ("colour", 'K'), ("line-buffered", 'U'),
      ("binary", 'U'), ("regexp", 'e'), ("file", 'f'), ("max-count", 'm'), ("after-context", 'A'),
      ("before-context", 'B'), ("context", 'C'), ("include", 'g'), ("exclude", 'O'),
      ("exclude-dir", 'N'), ("directories", 'd'), ("devices", 'D'), ("no-group-separator", 'Q')]⟩

/-- The digits that are options by themselves, as a number. -/
def digitOptions (a : Arguments) : Option Nat :=
  number? ((a.options.map (·.1)).filter Char.isDigit)

/-- The texts of the expressions that are asked for, and the other operands; the error is a file that
cannot be read, or none if nothing is asked for. -/
def searchTexts (a : Arguments) :
    Act (Except (Option (Chars × Files.Fault)) (List Chars × List Chars)) := do
  let mut texts : List Chars := []
  for (letter, value) in a.options do
    if letter = 'e' then texts := texts ++ pieces '\n' value
    if letter = 'f' then
      match ← whole value with
      | .error fault => return .error (some (value, fault))
      | .ok text => texts := texts ++ linesOf text
  if a.has 'e' || a.has 'f' then return .ok (texts, a.operands)
  else
    match a.operands with
    | text :: operands => return .ok (pieces '\n' text, operands)
    | [] => return .error none

/-- The expression that a text stands for, under the last of the options that name a notation. -/
def searchedExpression (kind : Char) (text : Chars) : Except RegexFault Regex :=
  match kind with
  | 'F' => .ok (fixedText text)
  | 'E' => Regex.read ⟨true, true⟩ text
  | 'P' => Regex.read ⟨true, false⟩ (withoutClasses (text.length + 1) text)
  | _ => Regex.read ⟨false, true⟩ text

/-! ## Files -/

/-- Whether a name is one of those that options include and exclude. -/
def isIncluded (a : Arguments) (name : Chars) : Bool :=
  let matchesOne (patterns : List Chars) : Bool :=
    patterns.any fun p ↦ globMatches (glob (Marked.ofChars false p)) name
  !(matchesOne (a.values 'O')) && ((a.values 'g').isEmpty || matchesOne (a.values 'g'))

/-- The files below a path, or the path itself; fuel for one step down.  A file that a link leads to is
left out unless links are followed. -/
def filesBelow (fs : Files) (a : Arguments) : Nat → Bool → Chars → List Chars
  | 0, _, path => [path]
  | fuel + 1, isGiven, path =>
    match fs.present (isGiven || a.has 'R') path.string with
    | .ok (_, .directory mode entries) =>
      if !isGiven && (a.values 'N').any fun p ↦
          globMatches (glob (Marked.ofChars false p)) (lastName path) then []
      else
        let front := if path.getLast? = some '/' then path else path ++ ['/']
        (unsorted (.directory mode entries)).flatMap fun (name, _) ↦
          filesBelow fs a fuel false (front ++ Chars.ofString name)
    | .ok (_, .link _) => []
    | .ok (_, .device _) => if isGiven then [path] else []
    | _ => if isGiven || isIncluded a (lastName path) then [path] else []

/-! ## Lines -/

/-- What a search asks for. -/
structure Search where
  searched : Searched
  options : Arguments
  /-- Whether names of files stand before lines. -/
  isNamed : Bool
  most : Option Nat
  /-- How many lines before and behind those that match are shown, if any are. -/
  before : Nat
  behind : Nat
  hasContext : Bool

/-- What was found in a text. -/
structure Finding where
  /-- The number of lines that were chosen. -/
  count : Nat
  /-- The number of the first line that was not shown yet. -/
  next : Nat
  /-- How many lines are still to be shown. -/
  pending : Nat
  /-- Whether anything was shown before, in this text or another one. -/
  used : Bool
  /-- Whether no more lines are looked at. -/
  done : Bool

namespace Search

/-- What ends a line. -/
def lineEnd (x : Search) : Char := if x.options.has 'z' then '\x00' else '\n'

/-- What stands before a line of a number at an offset. -/
def start (x : Search) (name : Chars) (mark : Char) (n offset : Nat) : Chars :=
  (if x.isNamed then name ++ [if x.options.has 'Z' then '\x00' else mark] else []) ++
    (if x.options.has 'n' then number n ++ [mark] else []) ++
    (if x.options.has 'b' then number offset ++ [mark] else [])

/-- Shows a line that was chosen, or what matches in it. -/
def showChosen (x : Search) (name line : Chars) (n offset : Nat) : Act Unit := do
  if x.options.has 'o' then
    unless x.options.has 'v' do
      for (at_, text) in x.searched.found (x.searched.subject line) (line.length + 1) 0 do
        say (x.start name ':' n (offset + at_) ++ text ++ [x.lineEnd])
  else say (x.start name ':' n offset ++ line ++ [x.lineEnd])

/-- Shows a line beside one that was chosen. -/
def showBeside (x : Search) (name line : Chars) (n offset : Nat) : Act Unit := do
  unless x.options.has 'o' do say (x.start name '-' n offset ++ line ++ [x.lineEnd])

/-- Whether nothing but names or numbers is shown. -/
def isQuiet (x : Search) : Bool := "cqlL".toList.any x.options.has

/-- Goes through lines; the last ones that were not chosen are kept, the last of them first. -/
def lines (x : Search) (name : Chars) :
    Nat → Nat → List (Nat × Nat × Chars) → Finding → List Chars → Act Finding
  | _, _, _, found, [] => return found
  | n, offset, kept, found, line :: rest => do
    let next := offset + line.length + 1
    if found.done then
      if found.pending = 0 then return found
      else do
        x.showBeside name line n offset
        lines x name (n + 1) next [] { found with pending := found.pending - 1 } rest
    else if x.searched.isIn line != x.options.has 'v' then
      let count := found.count + 1
      let done := x.most = some count || x.options.has 'q' || x.options.has 'l' || x.options.has 'L'
      unless x.isQuiet do
        let shown := (kept.take x.before).reverse
        let first := ((shown.head?).map (·.1)).getD n
        if x.hasContext && found.used && found.next != first && !x.options.has 'Q' then
          say "--\n".toList
        for (k, at_, text) in shown do x.showBeside name text k at_
        x.showChosen name line n offset
      lines x name (n + 1) next [] ⟨count, n + 1, x.behind, true, done⟩ rest
    else if 0 < found.pending then do
      unless x.isQuiet do x.showBeside name line n offset
      lines x name (n + 1) next [] { found with next := n + 1, pending := found.pending - 1 } rest
    else lines x name (n + 1) next ((n, offset, line) :: kept.take (x.before - 1)) found rest

/-- Whether a text is to be shown as lines. -/
def isBinary (x : Search) (text : Chars) : Bool :=
  !x.options.has 'a' && !x.options.has 'z' && text.contains '\x00'

/-- Searches a text of which more may come; gives what was found. -/
def text (x : Search) (name : Chars) (used : Bool) (s : Chars) (more : Bool) : Act Finding := do
  let ended := if more then (s.reverse.dropWhile (· != x.lineEnd)).reverse else s
  let all := pieces x.lineEnd ended
  let all := if all.getLast? = some [] then all.dropLast else all
  let start : Finding := ⟨0, 0, 0, used, x.most = some 0⟩
  let isHeard := match ← stream? 1 with
    | some (_, .device .null) => false
    | _ => true
  if x.isBinary s && !x.isQuiet && isHeard then
    if x.options.has 'I' then return start
    else if x.most != some 0 && all.any fun l ↦ x.searched.isIn l != x.options.has 'v' then
      complain "grep" (name.string ++ ": binary file matches")
      return { start with count := 1, used := true }
    else return start
  else if x.isBinary s && x.options.has 'I' then return start
  else
    let found ← x.lines name 1 0 [] start all
    if more && !found.done then throw .starved else return found

/-- Searches the text of a name, and shows what is asked for.  Gives what was found, or why the text
cannot be read. -/
def name (x : Search) (used : Bool) (path : Chars) : Act (Except Files.Fault Finding) := do
  let shown := if path = ['-'] then "(standard input)".toList else path
  match ← contents path with
  | .error fault => return .error fault
  | .ok (s, more) => do
    let found ← x.text shown used s more
    let ending := [if x.options.has 'Z' then '\x00' else '\n']
    unless x.options.has 'q' do
      if x.options.has 'l' then
        if 0 < found.count then say (shown ++ ending)
      else if x.options.has 'L' then
        if found.count = 0 then say (shown ++ ending)
      else if x.options.has 'c' then
        let front := if x.isNamed then shown ++ [if x.options.has 'Z' then '\x00' else ':'] else []
        say (front ++ number found.count ++ ['\n'])
    return .ok found

/-- Searches the texts of names; gives the status. -/
def names (x : Search) (paths : List Chars) : Act Nat := do
  let mut any := false
  let mut failed := false
  let mut used := false
  for path in paths do
    unless any && x.options.has 'q' do
      let refuses := !x.isQuiet && x.most != some 1 && path != ['-']
      if ← (if refuses then isOutput path else pure false) then
        complain "grep" (path.string ++ ": input file is also the output")
        failed := true
      else
        match ← x.name used path with
        | .ok found =>
          if 0 < found.count then any := true
          used := found.used
        | .error fault =>
          let isSkipped := fault = .isDirectory && x.options.value? 'd' == some "skip".toList
          unless isSkipped do
            unless x.options.has 's' do complainOf "grep" path fault
            failed := true
  return if failed && !(x.options.has 'q' && any) then 2 else if any then 0 else 1

end Search

/-! ## The tool -/

/-- Says how the tool is used. -/
def grepMisused (text : String) : Act Nat := do
  unless text.isEmpty do complain "grep" text
  warn "Usage: grep [OPTION]... PATTERNS [FILE]...\nTry 'grep --help' for more information.\n".toList
  return 2

/-- The number that an option asks for; the error is a text that is none. -/
def optionNumber (a : Arguments) (letter : Char) : Except Chars (Option Nat) :=
  match a.value? letter with
  | none => .ok none
  | some v =>
    match number? v with
    | some n => .ok (some n)
    | none => .error v

/-- What options ask for behind the expressions. -/
def searchOf (a : Arguments) (searched : Searched) (operands : List Chars) :
    Except String Search := do
  let context (letter : Char) : Except String (Option Nat) :=
    (optionNumber a letter).mapError fun v ↦ v.string ++ ": invalid context length argument"
  let both := (← context 'C').or (digitOptions a)
  let before := (← context 'B').or both
  let behind := (← context 'A').or both
  let most ← (optionNumber a 'm').mapError fun _ ↦ "invalid max count"
  let isNamed := match a.last? "Hh" with
    | some letter => letter == 'H'
    | none => 1 < operands.length
  return ⟨searched, a, isNamed, most, before.getD 0, behind.getD 0,
    before.isSome || behind.isSome⟩

/-- Prints the lines that match, in a notation unless options name one. -/
def grepAs (usual : Char) : Tool := fun words ↦ do
  match Arguments.read false grepOptions words with
  | .error fault => grepMisused fault.message
  | .ok a =>
    let kinds := (a.options.map (·.1)).filter fun c ↦ "EFGP".toList.contains c
    let kind := kinds.getLast?.getD usual
    match ← searchTexts a with
    | .error none => grepMisused ""
    | .error (some (name, fault)) => do
      complainOf "grep" name fault
      return 2
    | .ok (texts, operands) => do
      if kind = 'E' then
        for text in texts do
          for warning in startWarnings (text.length + 1) true text do
            complain "grep" ("warning: " ++ warning)
      match texts.mapM (searchedExpression kind) with
      | .error fault => do
        complain "grep" fault.message
        return 2
      | .ok expressions => do
        let searched : Searched := ⟨expressions, a.has 'i' || a.has 'y', a.has 'x', a.has 'w'⟩
        match searchOf a searched operands with
        | .error fault => do
          complain "grep" fault
          return 2
        | .ok x => do
          if a.has 'u' then complain "grep" "warning: --unix-byte-offsets (-u) is obsolete"
          let fs ← files
          let isRecursive := a.has 'r' || a.has 'R'
          if isRecursive then
            let isTree := match operands with
              | [one] => fs.isDirectory one.string
              | _ => true
            let x := { x with isNamed := if (a.last? "Hh").isSome then x.isNamed else isTree }
            if operands.isEmpty then
              x.names ((filesBelow fs a deepest true ['.']).map (List.drop 2))
            else x.names (operands.flatMap (filesBelow fs a deepest true))
          else x.names (inputNames operands)

end Tool
end Shell
end FirmwareLane
