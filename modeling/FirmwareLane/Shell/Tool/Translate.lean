import FirmwareLane.Shell.Pattern
import FirmwareLane.Shell.Tool.Basic

/-!
# The tool that changes characters

A set of characters is written as characters, escapes, ranges, classes and repetitions.  The tool
replaces the characters of one set by those of another one, deletes them, or leaves one of each run.
-/

set_option autoImplicit false
namespace FirmwareLane
namespace Shell
namespace Tool

open Act

/-- An element of a set as it is written. -/
inductive SetPart where
  | char (c : Char)
  | range (first last : Char)
  | ofClass (name : String)
  | like (c : Char)
  /-- A character so many times, or as often as it is needed. -/
  | repeated (c : Char) (times : Option Nat)
  deriving DecidableEq, Repr

/-- Why a set makes no sense. -/
inductive SetFault where
  | reversed (first last : Char)
  | unknownClass (name : String)
  | badRepeat (count : Chars)
  | notOne (text : Chars)
  | fillInFirst
  | fillTwice
  | misaligned
  | classInSecond
  | likeInSecond
  | endsInClass
  | emptySecond
  deriving DecidableEq, Repr

/-- The wording of a fault. -/
def SetFault.message : SetFault → String
  | .reversed a b =>
    "range-endpoints of '" ++ String.ofList [a, '-', b] ++
      "' are in reverse collating sequence order"
  | .unknownClass name => "invalid character class '" ++ name ++ "'"
  | .badRepeat count => "invalid repeat count '" ++ count.string ++ "' in [c*n] construct"
  | .notOne text =>
    text.string ++ ": equivalence class operand must be a single character"
  | .fillInFirst => "the [c*] repeat construct may not appear in string1"
  | .fillTwice => "only one [c*] repeat construct may appear in string2"
  | .misaligned => "misaligned [:upper:] and/or [:lower:] construct"
  | .classInSecond =>
    "when translating, the only character classes that may appear in\nstring2 are 'upper' and 'lower'"
  | .likeInSecond => "[=c=] expressions may not appear in string2 when translating"
  | .endsInClass =>
    "when translating with string1 longer than string2,\nthe latter string must not end with a " ++
      "character class"
  | .emptySecond => "when not truncating set1, string2 must be non-empty"

/-- The names of classes of characters. -/
def classNames : List String :=
  ["alnum", "alpha", "blank", "cntrl", "digit", "graph", "lower", "print", "punct", "space",
   "upper", "xdigit"]

/-- A text with its escapes replaced, whose characters are marked if they were escaped; fuel for one
step per character. -/
def unescaped : Nat → Chars → Marked
  | 0, _ => []
  | _, [] => []
  | _, ['\\'] => [('\\', true)]
  | fuel + 1, '\\' :: c :: rest =>
    let octal := ((c :: rest).take 3).takeWhile fun d ↦ '0' ≤ d && d ≤ '7'
    if !octal.isEmpty then
      let value (ds : Chars) : Nat := (Text.Numeral.read? 8 ds).getD 0
      let octal := if 255 < value octal then octal.take 2 else octal
      (Char.ofNat (value octal), true) :: unescaped fuel ((c :: rest).drop octal.length)
    else
      let d := match c with
        | 'a' => '\x07'
        | 'b' => '\x08'
        | 'f' => '\x0c'
        | 'n' => '\n'
        | 'r' => '\r'
        | 't' => '\t'
        | 'v' => '\x0b'
        | c => c
      (d, true) :: unescaped fuel rest
  | fuel + 1, c :: rest => (c, false) :: unescaped fuel rest

/-- What stands before the first mark and a bracket, and behind them. -/
def untilMark (mark : Char) (done : Chars) : Marked → Option (Chars × Marked)
  | (c, false) :: (']', false) :: rest =>
    if c = mark then some (done.reverse, rest)
    else untilMark mark (c :: done) ((']', false) :: rest)
  | (c, _) :: rest => untilMark mark (c :: done) rest
  | [] => none

/-- The repetition behind an opening bracket, and the rest. -/
def repetition? : Marked → Option (Except SetFault (SetPart × Marked))
  | (c, _) :: ('*', false) :: rest =>
    let inside := rest.takeWhile fun d ↦ d.1 != ']'
    let count := Marked.chars inside
    match rest.drop inside.length with
    | _ :: behind =>
      let base := if count.head? = some '0' then 8 else 10
      match Text.Numeral.read? base count with
      | some 0 => some (.ok (.repeated c none, behind))
      | some n => some (.ok (.repeated c (some n), behind))
      | none =>
        some (if count.isEmpty then .ok (.repeated c none, behind) else .error (.badRepeat count))
    | [] => none
  | _ => none

/-- The elements of a set; fuel for one step per element. -/
def setParts : Nat → Marked → Except SetFault (List SetPart)
  | 0, _ => .ok []
  | _, [] => .ok []
  | fuel + 1, (c, quoted) :: rest => do
    let plain : Except SetFault (List SetPart) :=
      match rest with
      | ('-', false) :: (d, _) :: behind => do
        if d < c then throw (.reversed c d)
        return .range c d :: (← setParts fuel behind)
      | rest => do return .char c :: (← setParts fuel rest)
    if c != '[' || quoted then plain
    else
      let named := match rest with
        | (':', false) :: inside => (untilMark ':' [] inside).map fun found ↦ (true, found)
        | ('=', false) :: inside => (untilMark '=' [] inside).map fun found ↦ (false, found)
        | _ => none
      match named, repetition? rest with
      | some (true, name, behind), _ =>
        if classNames.contains (String.ofList name) then
          return .ofClass (String.ofList name) :: (← setParts fuel behind)
        else throw (.unknownClass (Chars.string name))
      | some (false, [d], behind), _ => return .like d :: (← setParts fuel behind)
      | some (false, text, _), _ => throw (.notOne text)
      | none, some (.ok (part, behind)) => return part :: (← setParts fuel behind)
      | none, some (.error fault) => throw fault
      | none, none => plain

/-- The elements of the set that a text stands for. -/
def readParts (s : Chars) : Except SetFault (List SetPart) :=
  setParts (s.length + 1) (unescaped (s.length + 1) s)

/-- All characters. -/
def allChars : Chars := (List.range 256).map Char.ofNat

/-- The characters that an element stands for, given how many of a repetition are needed. -/
def SetPart.chars (needed : Nat) : SetPart → Chars
  | .char c => [c]
  | .range a b => (List.range (b.toNat + 1 - a.toNat)).map fun i ↦ Char.ofNat (a.toNat + i)
  | .ofClass name => allChars.filter (inClass name)
  | .like c => [c]
  | .repeated c times => List.replicate (times.getD needed) c

/-- The characters of a set, with as many of a repetition without a number as make up a length. -/
def charsOf (length : Nat) (parts : List SetPart) : Chars :=
  let fixed := (parts.flatMap (SetPart.chars 0)).length
  parts.flatMap (SetPart.chars (length - fixed))

/-- Whether an element is a class that only has letters of one case. -/
def SetPart.isCase : SetPart → Bool
  | .ofClass name => name = "upper" || name = "lower"
  | _ => false

/-- Whether the classes of one case in the second set stand where such classes stand in the first
one. -/
def areAligned (first second : List SetPart) : Bool :=
  let positions (parts : List SetPart) : List Nat :=
    (parts.foldl (fun (found, n) part ↦
      (if part.isCase then found ++ [n] else found, n + (part.chars 0).length))
      (([] : List Nat), 0)).1
  (positions second).all (positions first).contains

/-- A text with one character of every run of the same character of a set. -/
def squeeze (isIn : Char → Bool) (s : Chars) : Chars :=
  (s.foldl (fun (out, last) c ↦
    if last = some c && isIn c then (out, last) else (c :: out, some c))
    (([] : Chars), (none : Option Char))).1.reverse

/-- What a tool does to characters. -/
structure Translation where
  first : Chars
  second : Chars

/-- The sets for the replacement of characters. -/
def translation (a : Arguments) (one two : Chars) : Except SetFault Translation := do
  let p ← readParts one
  let q ← readParts two
  let isFill : SetPart → Bool := fun
    | .repeated _ none => true
    | _ => false
  if p.any isFill then throw .fillInFirst
  if 1 < q.countP isFill then throw .fillTwice
  let first := charsOf 0 p
  let isComplement := a.has 'c' || a.has 'C'
  let first := if isComplement then allChars.filter fun c ↦ !first.contains c else first
  let second := charsOf first.length q
  for part in q do
    match part with
    | .like _ => throw .likeInSecond
    | .ofClass _ => unless part.isCase do throw .classInSecond
    | _ => pure ()
  unless isComplement || areAligned p q do throw .misaligned
  if a.has 't' then return ⟨first.take second.length, second⟩
  else
    if second.isEmpty && !first.isEmpty then throw .emptySecond
    if second.length < first.length && q.getLast?.any SetPart.isCase then throw .endsInClass
    let last := (second.getLast?).getD ' '
    return ⟨first, second ++ List.replicate (first.length - second.length) last⟩

/-- The set of characters that a text stands for, or all others. -/
def charactersOf (a : Arguments) (s : Chars) : Except SetFault Chars := do
  let parts ← readParts s
  if parts.any fun
      | .repeated _ none => true
      | _ => false then throw .fillInFirst
  let chars := charsOf 0 parts
  return if a.has 'c' || a.has 'C' then allChars.filter fun c ↦ !chars.contains c else chars

/-- Whether a character is in a set, found quickly. -/
def membership (set : Chars) : Char → Bool :=
  let table := set.foldl (fun (t : Array Bool) c ↦ t.setIfInBounds c.toNat true)
    (Array.replicate 256 false)
  fun c ↦ (table[c.toNat]?).getD false

/-- What `tr` makes of a text. -/
def translated (a : Arguments) (operands : List Chars) : Except SetFault (Chars → Chars) := do
  let squeezes := a.has 's'
  match a.has 'd', operands with
  | true, one :: rest => do
    let first := membership (← charactersOf a one)
    let second ← match rest with
      | two :: _ => (readParts two).map (charsOf 0)
      | [] => pure []
    let isIn := membership second
    return fun s ↦
      let kept := s.filter fun c ↦ !first c
      if squeezes then squeeze isIn kept else kept
  | false, [one] => do
    let isIn := membership (← charactersOf a one)
    return squeeze isIn
  | _, one :: two :: _ => do
    let t ← translation a one two
    let table := (List.zip t.first t.second).foldl
      (fun (table : Array Char) (x, y) ↦ table.setIfInBounds x.toNat y)
      ((Array.range 256).map Char.ofNat)
    let isIn := membership t.second
    return fun s ↦
      let changed := s.map fun c ↦ (table[c.toNat]?).getD c
      if squeezes then squeeze isIn changed else changed
  | _, [] => return fun s ↦ s

/-- What is wrong with the number of operands of `tr`. -/
def operandFault? (a : Arguments) : Option String :=
  let least := if a.has 'd' == a.has 's' then 2 else 1
  let most := if a.has 'd' && !a.has 's' then 1 else 2
  match a.operands with
  | [] => some "missing operand"
  | [one] =>
    if least ≤ 1 then none
    else some ("missing operand after '" ++ one.string ++ "'\n" ++
      if a.has 'd' then "Two strings must be given when both deleting and squeezing repeats."
      else "Two strings must be given when translating.")
  | operands =>
    (operands[most]?).map fun w ↦ "extra operand '" ++ Chars.string w ++ "'" ++
      if operands.length = 2 then
        "\nOnly one string may be given when deleting without squeezing repeats."
      else ""

/-- Replaces, deletes or squeezes characters. -/
def tr : Tool := fun words ↦
  withArguments "tr"
    ⟨"dscCt", "",
      [("delete", 'd'), ("squeeze-repeats", 's'), ("complement", 'c'), ("truncate-set1", 't')]⟩
    words fun a ↦ do
    match operandFault? a with
    | some text => misused "tr" text
    | none => do
      for w in a.operands do
        if (w.reverse.takeWhile (· == '\\')).length % 2 = 1 then
          complain "tr" "warning: an unescaped backslash at end of string is not portable"
      match translated a a.operands with
      | .error fault => do
        complain "tr" fault.message
        return 1
      | .ok change =>
        match ← readOn 0 with
        | .error fault => do
          complain "tr" ("read error: " ++ fault.reason)
          return 1
        | .ok (text, more) => do
          say (change text)
          endWith more 0

end Tool
end Shell
end FirmwareLane
