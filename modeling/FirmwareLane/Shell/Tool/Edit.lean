import FirmwareLane.Shell.Tool.Copy
import FirmwareLane.Shell.Tool.Edit.Script

/-!
# A tool that edits lines

A tool that carries out a script for every line of its input.  The line is kept in a space, and there is
another one in which a script can keep text.
-/

set_option autoImplicit false
namespace FirmwareLane
namespace Shell
namespace Edit

open Act

/-! ## What is known -/

/-- How a script is carried out. -/
structure Plan where
  commands : Array Command
  /-- Whether lines are written only where the script says so. -/
  quiet : Bool
  /-- Whether every file has lines of its own. -/
  separate : Bool
  /-- What is put behind the name of a file that is edited for the name under which the old text is
  kept; nothing if the text goes to the output. -/
  inPlace : Option Chars
  /-- What ends a line. -/
  lineEnd : Char
  width : Nat

/-- A line, and whether something ends it. -/
abbrev Line := Chars × Bool

/-- What waits for the end of the work on a line. -/
inductive Queued where
  | text (s : Chars)
  | file (name : Chars)

/-- What is written to a file, the last piece first, and whether the last line has no end yet. -/
structure Output where
  pieces : List Chars
  isOpen : Bool

/-- What is known while a script is carried out. -/
structure Editing where
  /-- The file whose lines are edited, and whether there is one. -/
  name : Chars
  isReading : Bool
  /-- The lines that are still to be read from it, and whether more may come. -/
  lines : List Line
  more : Bool
  /-- The number of characters that were read from the input. -/
  read : Nat
  /-- The files that come after it. -/
  later : List Chars
  number : Nat
  space : Line
  kept : Line
  queue : List Queued
  replaced : Bool
  /-- The ranges that have begun, by the numbers of their commands, with the numbers of their last lines
  if those are known. -/
  ranges : List (Nat × Option Nat)
  lastSought : Option Regex
  /-- What goes to the output, if that is kept. -/
  output : Output
  files : List (Chars × Output)
  /-- The files that are read line by line, with their lines. -/
  readers : List (Chars × List Chars)
  status : Nat

/-- The lines of a text. -/
def linesBy (lineEnd : Char) (s : Chars) : List Line :=
  let all := pieces lineEnd s
  match all.getLast? with
  | some last =>
    all.dropLast.map (fun l ↦ (l, true)) ++ if last.isEmpty then [] else [(last, false)]
  | none => []

/-! ## Writing -/

/-- An output with a text behind it. -/
def Output.add (o : Output) (text : Chars) : Output := { o with pieces := text :: o.pieces }

/-- Writes text, with an end of the line before it if there is none. -/
def emit (p : Plan) (x : Editing) (text : Chars) : Act Editing := do
  let text := if x.output.isOpen then p.lineEnd :: text else text
  if p.inPlace.isSome then return { x with output := ⟨text :: x.output.pieces, false⟩ }
  else do
    say text
    return { x with output := ⟨[], false⟩ }

/-- Writes a line. -/
def emitLine (p : Plan) (x : Editing) (line : Line) : Act Editing := do
  let x ← emit p x (if line.2 then line.1 ++ [p.lineEnd] else line.1)
  return { x with output := { x.output with isOpen := !line.2 } }

/-- Writes a line to a file. -/
def emitTo (p : Plan) (x : Editing) (name : Chars) (line : Line) : Act Editing := do
  let text := if line.2 then line.1 ++ [p.lineEnd] else line.1
  match name.string with
  | "/dev/stdout" => do
    if p.inPlace.isSome then
      say text
      return x
    else emitLine p x line
  | "/dev/stderr" => do
    warn text
    return x
  | _ =>
    let change (o : Output) : Output :=
      ⟨text :: (if o.isOpen then [p.lineEnd] :: o.pieces else o.pieces), !line.2⟩
    return { x with files := x.files.map fun (n, o) ↦ (n, if n = name then change o else o) }

/-- Writes what waits for the end of the work on a line. -/
def emitQueue (p : Plan) (x : Editing) : Act Editing := do
  let mut y := { x with queue := [] }
  for entry in x.queue do
    match entry with
    | .text s => y ← emit p y s
    | .file name =>
      match ← (if name = "/dev/stdin".toList then whole ['-'] else whole name) with
      | .ok s => y ← emit p y s
      | .error _ => pure ()
  return y

/-! ## Reading -/

/-- The number of bytes of the input that are read at once. -/
def blockSize : Nat := 4096

/-- Leaves the file that is read: what is left of the input stays there, and a file that is edited gets
its text. -/
def leaveFile (p : Plan) (x : Editing) : Act Editing := do
  if !x.isReading then return x
  else if x.name = ['-'] then
    let behind := (x.read + blockSize - 1) / blockSize * blockSize
    skip 0 (if ← isFile 0 then x.read else behind) x.read
    return { x with isReading := false }
  else
    match p.inPlace with
    | none => return { x with isReading := false }
    | some suffix => do
      let text := x.output.pieces.foldl (fun s piece ↦ piece ++ s) []
      if !suffix.isEmpty then
        if let .ok old ← whole x.name then
          let _ ← writeFile (x.name ++ suffix) old
      let _ ← writeFile x.name text
      return { x with isReading := false, output := ⟨[], false⟩ }

/-- Opens the next file that can be read; tells whether there is one. -/
def openNext (p : Plan) : List Chars → Editing → Act (Editing × Bool)
  | [], x => return ({ x with later := [] }, false)
  | name :: rest, x => do
    let refuse (text : String) (status : Nat) : Act Editing := do
      complain "sed" text
      return { x with status := max x.status status }
    let start (text : Chars) (more : Bool) : Editing :=
      let all := linesBy p.lineEnd text
      { x with
        name
        isReading := true
        lines := if more then all.filter (·.2) else all
        more
        read := 0
        later := rest
        number := if p.separate then 0 else x.number
        ranges := if p.separate then [] else x.ranges }
    if name = ['-'] && p.inPlace.isNone then
      match ← ahead 0 none with
      | .ok (text, more) => return (start text more, true)
      | .error fault => do
        let x ← refuse ("couldn't read -: " ++ fault.reason) 2
        openNext p rest x
    else
      match ← contents name with
      | .ok (text, more) => return (start text more, true)
      | .error .isDirectory =>
        if p.inPlace.isSome then do
          let x ← refuse ("couldn't edit " ++ name.string ++ ": not a regular file") 4
          openNext p rest x
        else do
          let x ← refuse ("read error on " ++ name.string ++ ": Is a directory") 4
          return ({ x with later := [] }, false)
      | .error fault => do
        let x ← refuse ("can't read " ++ name.string ++ ": " ++ fault.reason) 2
        openNext p rest x

/-- Whether one of some files holds anything. -/
def anyData : List Chars → Act Bool
  | [] => return false
  | name :: rest => do
    let text ← if name = ['-'] then ahead 0 none else contents name
    match text with
    | .ok (s, more) => if s.isEmpty && !more then anyData rest else return true
    | .error _ => anyData rest

/-- Whether the line that is edited is the last one. -/
def isLast (p : Plan) (x : Editing) : Act Bool := do
  if !x.lines.isEmpty then return false
  else if x.more then throw .starved
  else if p.separate then return true
  else return !(← anyData x.later)

/-- Reads the next line, if there is one; fuel for one step per file. -/
def nextLine (p : Plan) : Nat → Editing → Act (Editing × Option Line)
  | 0, x => return (x, none)
  | fuel + 1, x =>
    match x.lines with
    | line :: rest =>
      return ({ x with
        lines := rest
        number := x.number + 1
        read := x.read + line.1.length + if line.2 then 1 else 0
        replaced := false }, some line)
    | [] => do
      if x.more then throw .starved
      else
        let x ← leaveFile p x
        let (x, found) ← openNext p x.later x
        if found then nextLine p fuel x else return (x, none)

/-! ## Lines that commands are for -/

/-- A text that is searched for a thing. -/
def Sought.subject (s : Sought) (text : Chars) : Regex.Subject :=
  ⟨text.toArray, s.ignoreCase, s.byLine⟩

/-- The expression of a search, which becomes the last one. -/
def expressionOf (x : Editing) (s : Sought) : Act (Editing × Regex) := do
  match s.expression.or x.lastSought with
  | some r => return ({ x with lastSought := some r }, r)
  | none => do
    complain "sed" "-e expression #1, char 0: no previous regular expression"
    setStatus 1
    throw .exit

/-- Whether the line that is edited is one that an address names. -/
def isNamed (p : Plan) (x : Editing) (a : Address) : Act (Editing × Bool) := do
  match a with
  | .line n => return (x, x.number == n)
  | .step first step => return (x, first ≤ x.number && (x.number - first) % step == 0)
  | .last => return (x, ← isLast p x)
  | .found s => do
    let (x, r) ← expressionOf x s
    return (x, (Regex.search? (s.subject x.space.1) r 0).isSome)
  | .behind _ => return (x, false)
  | .multiple _ => return (x, false)

/-- The number of the last line of a range that begins at a line, if the address gives one. -/
def lastOfRange? (number : Nat) : Address → Option Nat
  | .line n => some n
  | .behind n => some (number + n)
  | .multiple n => some (if n = 0 then number else (number + n - 1) / n * n)
  | _ => none

/-- Whether the command of a number is for the line that is edited. -/
def isChosen (p : Plan) (x : Editing) (i : Nat) (c : Command) : Act (Editing × Bool) := do
  match c.first, c.second with
  | none, _ => return (x, true)
  | some a, none => isNamed p x a
  | some a, some b =>
    let without (y : Editing) : Editing := { y with ranges := y.ranges.filter (·.1 != i) }
    let isZero := match a with
      | .line 0 => true
      | _ => false
    let begun := if isZero && x.number = 1 then some none else x.ranges.lookup i
    match begun with
    | some (some last) =>
      return (if last ≤ x.number then without x else x, x.number ≤ last)
    | some none => do
      let (x, ends) ← isNamed p x b
      let others := (without x).ranges
      return ({ x with ranges := if ends then others else (i, none) :: others }, true)
    | none => do
      let (x, begins) ← isNamed p x a
      if !begins then return (x, false)
      else
        match lastOfRange? x.number b with
        | some last =>
          return (if last ≤ x.number then x else { x with ranges := (i, some last) :: x.ranges },
            true)
        | none => do
          let isOver ← match b with
            | .last => isLast p x
            | _ => pure false
          return (if isOver then x else { x with ranges := (i, none) :: x.ranges }, true)

/-! ## Substitutions -/

/-- A text whose letters are changed in case, the change of what follows, and that of the next
character. -/
structure Cased where
  /-- The text in reverse. -/
  text : Chars
  change : CaseChange
  next : CaseChange

/-- A text with one more character. -/
def Cased.add (x : Cased) (c : Char) : Cased :=
  let d := match x.next with
    | .upperNext => c.toUpper
    | .lowerNext => c.toLower
    | _ =>
      match x.change with
      | .upper => c.toUpper
      | .lower => c.toLower
      | _ => c
  { x with text := d :: x.text, next := .none }

/-- A text with one more part of a replacement for a match. -/
def Cased.insert (s : Regex.Subject) (m : Regex.Match) (x : Cased) : Insert → Cased
  | .char c => x.add c
  | .group n => (m.text s n).foldl Cased.add x
  | .change .upperNext => { x with next := .upperNext }
  | .change .lowerNext => { x with next := .lowerNext }
  | .change c => { x with change := c }

/-- What a match is replaced by. -/
def replacement (s : Regex.Subject) (m : Regex.Match) (parts : List Insert) : Chars :=
  (parts.foldl (Cased.insert s m) ⟨[], .none, .none⟩).text.reverse

/-- The text behind a position with matches replaced, in pieces the last of which comes first, and whether
there was one; `count` matches come first, and `last` is where the match before ended.  Fuel for one
step per match. -/
def replaceFrom (c : Substitution) (r : Regex) (s : Regex.Subject) :
    Nat → Nat → Nat → Option Nat → List Chars → Bool → List Chars × Bool
  | 0, _, _, _, done, changed => (done, changed)
  | fuel + 1, count, start, last, done, changed =>
    let rest : List Chars × Bool := (s.slice start s.text.size :: done, changed)
    if s.text.size < start then (done, changed)
    else
      match Regex.search? s r start with
      | none => rest
      | some m =>
        let before := s.slice start m.first
        let isEmpty := m.first = m.last
        if isEmpty && last = some m.first then
          replaceFrom c r s fuel count (m.first + 1) none
            (s.slice m.first (m.first + 1) :: before :: done) changed
        else if count + 1 < c.first then
          if isEmpty then
            replaceFrom c r s fuel (count + 1) (m.first + 1) none
              (s.slice m.first (m.first + 1) :: before :: done) changed
          else
            replaceFrom c r s fuel (count + 1) m.last (some m.last)
              (s.slice m.first m.last :: before :: done) changed
        else
          let done := replacement s m c.replacement :: before :: done
          if !c.all then (s.slice m.last s.text.size :: done, true)
          else if isEmpty then
            replaceFrom c r s fuel (count + 1) (m.first + 1) none
              (s.slice m.first (m.first + 1) :: done) true
          else replaceFrom c r s fuel (count + 1) m.last (some m.last) done true

/-- Carries out a substitution. -/
def substitute (p : Plan) (x : Editing) (c : Substitution) : Act Editing := do
  let (x, r) ← expressionOf x c.sought
  let s := c.sought.subject x.space.1
  let (found, changed) := replaceFrom c r s (s.text.size + 2) 0 0 none [] false
  if !changed then return x
  else
    let line : Line := (found.foldl (fun all piece ↦ piece ++ all) [], x.space.2)
    let x := { x with space := line, replaced := true }
    let x ← if c.print then emitLine p x line else pure x
    match c.file with
    | some name => emitTo p x name line
    | none => return x

/-! ## Lists -/

/-- A character as it is listed. -/
def listed (c : Char) : Chars :=
  match c with
  | '\\' => "\\\\".toList
  | '\x07' => "\\a".toList
  | '\x08' => "\\b".toList
  | '\x0c' => "\\f".toList
  | '\n' => "\\n".toList
  | '\r' => "\\r".toList
  | '\t' => "\\t".toList
  | '\x0b' => "\\v".toList
  | c => if ' ' ≤ c && c ≤ '~' then [c] else '\\' :: Text.Numeral.writePadded 8 3 c.toNat

/-- A text as it is listed in lines of a width, if there is one. -/
def listing (width : Nat) (s : Chars) : Chars :=
  let (done, _) := s.foldl (fun (done, column) c ↦
    let piece := listed c
    if 0 < width && width - 1 < column + piece.length then
      (piece.reverse ++ '\n' :: '\\' :: done, piece.length)
    else (piece.reverse ++ done, column + piece.length)) (([] : Chars), 0)
  (('$' :: done).reverse)

/-! ## Commands -/

/-- The place behind the end of the block that begins at a place; `depth` blocks are open.  Fuel for one
step per command. -/
def behindBlock (commands : Array Command) : Nat → Nat → Nat → Nat
  | 0, i, _ => i
  | fuel + 1, i, depth =>
    match commands[i]? with
    | none => i
    | some c =>
      match c.action with
      | .openBlock => behindBlock commands fuel (i + 1) (depth + 1)
      | .closeBlock => if depth ≤ 1 then i + 1 else behindBlock commands fuel (i + 1) (depth - 1)
      | _ => behindBlock commands fuel (i + 1) depth

/-- The place of a label; the end if it has no name, and nothing if it is not there. -/
def placeOf? (commands : Array Command) (name : Chars) : Option Nat :=
  if name.isEmpty then some commands.size
  else
    commands.findIdx? fun c ↦ match c.action with
      | .label n => n == name
      | _ => false

/-- What comes after a command. -/
inductive Step where
  | go (place : Nat)
  /-- The work on the line is done; a mark tells whether the line is written. -/
  | finish (prints : Bool)
  /-- The work on the line begins again with what is left of it. -/
  | again
  | quit (prints : Bool) (status : Nat)

/-- The next line of a file that is read line by line. -/
def readerLine (x : Editing) (name : Chars) : Act (Editing × Option Chars) := do
  let lines ← match x.readers.lookup name with
    | some lines => pure lines
    | none => do
      match ← whole name with
      | .ok s => pure (Tool.endedLines s)
      | .error _ => pure []
  let others := x.readers.filter (·.1 != name)
  return ({ x with readers := (name, lines.drop 1) :: others }, lines.head?)

/-- The text of a line up to its first line end. -/
def firstLine (s : Chars) : Chars := s.takeWhile (· != '\n')

/-- Carries out the command at a place. -/
def act (p : Plan) (x : Editing) (i : Nat) (c : Command) : Act (Editing × Step) := do
  let go (x : Editing) : Act (Editing × Step) := return (x, .go (i + 1))
  match c.action with
  | .nothing => go x
  | .openBlock => go x
  | .closeBlock => go x
  | .label _ => go x
  | .jump condition name =>
    let jumps := condition.all (· == x.replaced)
    let x := if condition.isSome then { x with replaced := false } else x
    return (x, .go (if jumps then (placeOf? p.commands name).getD p.commands.size else i + 1))
  | .append text => go { x with queue := x.queue ++ [.text text] }
  | .insert text => do go (← emit p x text)
  | .replace text => do
    let inRange := c.second.isSome && (x.ranges.lookup i).isSome && !c.negated
    let x ← if inRange then pure x else emit p x text
    return (x, .finish false)
  | .substitute s => do go (← substitute p x s)
  | .translate table => go { x with space := (x.space.1.map fun c ↦ (table.lookup c).getD c, x.space.2) }
  | .print => do go (← emitLine p x x.space)
  | .printFirst => do go (← emitLine p x (firstLine x.space.1, true))
  | .delete => return (x, .finish false)
  | .deleteFirst =>
    if x.space.1.contains '\n' then
      let rest := (x.space.1.dropWhile (· != '\n')).drop 1
      return ({ x with space := (rest, x.space.2) }, .again)
    else return (x, .finish false)
  | .next => do
    if ← isLast p x then return (x, .finish true)
    else
      let x ← if p.quiet then pure x else emitLine p x x.space
      let x ← emitQueue p x
      match ← nextLine p (x.later.length + 2) x with
      | (x, some line) => go { x with space := line }
      | (x, none) => return (x, .finish false)
  | .appendNext => do
    if ← isLast p x then return (x, .finish true)
    else
      let x ← emitQueue p x
      match ← nextLine p (x.later.length + 2) x with
      | (x, some line) => go { x with space := (x.space.1 ++ p.lineEnd :: line.1, line.2) }
      | (x, none) => return (x, .finish true)
  | .quit status silent => return (x, .quit (!silent) status)
  | .number => do go (← emit p x (Shell.number x.number ++ ['\n']))
  | .name => do go (← emit p x (x.name ++ ['\n']))
  | .list width => do go (← emit p x (listing (width.getD p.width) x.space.1 ++ ['\n']))
  | .hold => go { x with kept := x.space }
  | .appendHold => go { x with kept := (x.kept.1 ++ p.lineEnd :: x.space.1, x.kept.2) }
  | .get => go { x with space := x.kept }
  | .appendGet => go { x with space := (x.space.1 ++ p.lineEnd :: x.kept.1, x.space.2) }
  | .exchange => go { x with space := x.kept, kept := x.space }
  | .clear => go { x with space := ([], x.space.2) }
  | .readFile name => go { x with queue := x.queue ++ [.file name] }
  | .readLine name => do
    let (x, line) ← readerLine x name
    go { x with queue := x.queue ++ (line.map Queued.text).toList }
  | .write name => do go (← emitTo p x name x.space)
  | .writeFirst name => do go (← emitTo p x name (firstLine x.space.1, true))

/-- The end of the work on a line. -/
def finishLine (p : Plan) (x : Editing) (prints : Bool) : Act Editing := do
  let x ← if prints && !p.quiet then emitLine p x x.space else pure x
  emitQueue p x

/-- Carries out commands from a place on for the line that is edited, and then for all that follow; fuel
for one step per command that is carried out. -/
def edit (p : Plan) : Nat → Nat → Editing → Act Editing
  | 0, _, _ => throw .timeUp
  | fuel + 1, i, x => do
    let (x, step) ← match p.commands[i]? with
      | none => pure (x, Step.finish true)
      | some c => do
        let (x, chosen) ← isChosen p x i c
        if chosen != c.negated then act p x i c
        else
          let behind := match c.action with
            | .openBlock => behindBlock p.commands (p.commands.size + 1) i 0
            | _ => i + 1
          pure (x, .go behind)
    match step with
    | .go place => edit p fuel place x
    | .again => do
      let x ← emitQueue p x
      edit p fuel 0 x
    | .finish prints => do
      let x ← finishLine p x prints
      match ← nextLine p (x.later.length + 2) x with
      | (x, some line) => edit p fuel 0 { x with space := line }
      | (x, none) => return x
    | .quit prints status => do
      let x ← if prints then finishLine p x true else pure x
      let x ← leaveFile p x
      return { x with status }

/-- How many commands are carried out at most. -/
def greatestSteps : Nat := Nat.pow 2 22

end Edit

namespace Tool

open Act Edit

/-- The files that a script writes to. -/
def writtenFiles (commands : List Edit.Command) : List Chars :=
  (commands.filterMap fun c ↦ match c.action with
    | .write name => some name
    | .writeFirst name => some name
    | .substitute s => s.file
    | _ => none).eraseDups.filter fun name ↦
      name != "/dev/stdout".toList && name != "/dev/stderr".toList

/-- The texts of a script: those that are arguments, and those that are in files. -/
structure ScriptPart where
  file : Option Chars
  text : Chars

/-- Where a fault is that was found behind so many characters of the parts of a script. -/
def faultPlace (isBrace : Bool) : Nat → Nat → List ScriptPart → String
  | _, _, [] => "-e expression #1, char 0"
  | n, at_, part :: rest =>
    if part.text.length + 1 ≤ at_ && !rest.isEmpty then
      faultPlace isBrace (if part.file.isSome then n else n + 1) (at_ - part.text.length - 1) rest
    else
      match part.file with
      | some name => "file " ++ name.string ++ " line " ++
          (number ((part.text.take (at_ - 1)).count '\n' + 1)).string
      | none => "-e expression #" ++ (number n).string ++ ", char " ++
          (number (if isBrace then 0 else min at_ part.text.length)).string

/-- The parts of a script that options and the first operand give, and the other operands; the error is a
file that cannot be read. -/
def scriptParts (a : Arguments) :
    Act (Except (Option (Chars × Files.Fault)) (List ScriptPart × List Chars)) := do
  let mut parts : List ScriptPart := []
  for (letter, value) in a.options do
    if letter = 'e' then parts := parts ++ [⟨none, value⟩]
    if letter = 'f' then
      match ← whole value with
      | .error fault => return .error (some (value, fault))
      | .ok text =>
        let body := if text.getLast? = some '\n' then text.dropLast else text
        parts := parts ++ [⟨some value, body⟩]
  if parts.isEmpty then
    match a.operands with
    | text :: operands => return .ok ([⟨none, text⟩], operands)
    | [] => return .error none
  else return .ok (parts, a.operands)

/-- Says how the tool is used. -/
def editMisused (text : String) : Act Nat := do
  unless text.isEmpty do complain "sed" text
  warn "Usage: sed [OPTION]... \x7bscript-only-if-no-other-script\x7d [input-file]...\n\n".toList
  return 1

/-- The options of `sed`. -/
def editOptions : Options :=
  ⟨"nErszubi?", "efl",
    [("quiet", 'n'), ("silent", 'n'), ("in-place", 'i'), ("expression", 'e'), ("file", 'f'),
      ("regexp-extended", 'E'), ("separate", 's'), ("null-data", 'z'), ("zero-terminated", 'z'),
      ("unbuffered", 'u'), ("line-length", 'l'), ("binary", 'b'), ("posix", 'b'),
      ("follow-symlinks", 'b')]⟩

/-- The label that a script goes to though it does not have it, if there is one. -/
def missingLabel? (commands : List Edit.Command) : Option Chars :=
  commands.findSome? fun c ↦ match c.action with
    | .jump _ name =>
      if (Edit.placeOf? commands.toArray name).isSome then none else some name
    | _ => none

/-- Carries out a script for the lines of files. -/
def editFiles (a : Arguments) (isSilent : Bool) (commands : List Edit.Command)
    (operands : List Chars) : Act Nat := do
  let targets := writtenFiles commands
  for name in targets do
    match ← writeFile name [] with
    | .ok () => pure ()
    | .error fault => do
      complain "sed" ("couldn't open file " ++ name.string ++ ": " ++ fault.reason)
      return 4
  let p : Plan :=
    { commands := commands.toArray
      quiet := a.has 'n' || isSilent
      separate := a.has 's' || a.has 'i'
      inPlace := a.value? 'i'
      lineEnd := if a.has 'z' then '\x00' else '\n'
      width := ((a.value? 'l').bind number?).getD 70 }
  let start : Editing :=
    { name := [], isReading := false, lines := [], more := false, read := 0,
      later := inputNames operands, number := 0, space := ([], true), kept := ([], true), queue := [],
      replaced := false, ranges := [], lastSought := none, output := ⟨[], false⟩,
      files := targets.map fun name ↦ (name, ⟨[], false⟩), readers := [], status := 0 }
  let x ← match ← nextLine p (start.later.length + 2) start with
    | (x, some line) => edit p greatestSteps 0 { x with space := line }
    | (x, none) => pure x
  for (name, o) in x.files do
    let _ ← writeFile name (o.pieces.foldl (fun s piece ↦ piece ++ s) [])
  return x.status

/-- Edits lines by a script. -/
def sed : Tool := fun words ↦ do
  match Arguments.read false editOptions words with
  | .error fault => editMisused fault.message
  | .ok a =>
    match ← scriptParts a with
    | .error none => editMisused ""
    | .error (some (name, fault)) => do
      complain "sed" ("couldn't open file " ++ name.string ++ ": " ++ fault.reason)
      return 1
    | .ok (parts, operands) => do
      let text := joinWith ['\n'] (parts.map (·.text))
      let isSilent := (text.takeWhile (· != '\n')) = "#n".toList
      match Edit.Reading.run (a.has 'E' || a.has 'r') text with
      | .error (.regex .bareClass, _) => do
        complain "sed" RegexFault.bareClass.message
        return 4
      | .error (fault, at_) => do
        complain "sed" (faultPlace (fault = .unmatchedBrace) 1 at_ parts ++ ": " ++ fault.message)
        return 1
      | .ok commands =>
        match missingLabel? commands with
        | some name => do
          complain "sed" ("can't find label for jump to \x60" ++ name.string ++ "'")
          return 4
        | none => editFiles a isSilent commands operands

end Tool
end Shell
end FirmwareLane
