import FirmwareLane.Shell.Arithmetic
import FirmwareLane.Shell.Parser
import FirmwareLane.Shell.Pattern
import FirmwareLane.Shell.State

/-!
# Expansion of words

A word becomes a list of fields: its expansions are replaced by their values, what came out of an
unquoted expansion is split at the separators, and fields that are patterns are replaced by the
names of the files that match them.

The value of a list of parameters is one text with the character between its elements that no text of
the shell holds.
-/

set_option autoImplicit false
namespace FirmwareLane
namespace Shell

/-- A piece of a word whose expansions are replaced. -/
inductive Piece where
  /-- A character, with marks that tell whether it is quoted and whether it can separate fields. -/
  | char (c : Char) (quoted separable : Bool)
  /-- Something is here, though it may be empty. -/
  | presence
  /-- A value begins here that is split, or a list of fields. -/
  | value (isList : Bool)
  /-- An element of a list ends here. -/
  | break
  deriving Repr

namespace Piece

/-- The pieces of a value: quoted characters, or a text that is split. -/
def ofValue (quoted : Bool) (s : Chars) : List Piece :=
  if quoted then s.map fun c ↦ .char c true false
  else .value false :: s.map fun c ↦ if c = '\x00' then .break else .char c false true

/-- The pieces of a quoted list. -/
def ofList (s : Chars) : List Piece :=
  .value true :: s.map fun c ↦ if c = '\x00' then .break else .char c true false

/-- The characters of pieces with their marks. -/
def marked (ps : List Piece) : Marked :=
  ps.filterMap fun
    | .char c quoted _ => some (c, quoted)
    | _ => none

/-- The characters of pieces. -/
def chars (ps : List Piece) : Chars := Marked.chars (marked ps)

end Piece

/-! ## Fields -/

/-- Whether a character is a blank by which fields are separated. -/
def isSpacing (c : Char) : Bool := c = ' ' || c = '\t' || c = '\n'

/-- What is known while pieces are split. -/
structure Splitting where
  /-- The fields so far and the current one, all in reverse. -/
  fields : List Marked
  current : Marked
  /-- Whether there is a current field. -/
  present : Bool
  /-- Whether a blank ended the last field, so that blanks behind it belong to it. -/
  afterBlank : Bool
  /-- Whether the value is a list, and whether the value before it is. -/
  inList : Bool
  afterList : Bool
  /-- How many fields there may still be, if they are limited. -/
  left : Option Nat
  /-- The length of the last field without the separators at its end. -/
  length? : Option Nat

/-- The splitting before the first piece, with so many fields at most. -/
def Splitting.start (most : Option Nat) : Splitting :=
  ⟨[], [], false, false, false, false, most, none⟩

/-- The splitting with one more character in the current field. -/
def Splitting.keep (x : Splitting) (c : Char) (quoted : Bool) : Splitting :=
  { x with current := (c, quoted) :: x.current, present := true }

/-- The splitting with one more character in the last field that there may be. -/
def Splitting.keepLast (separators : Chars) (x : Splitting) (c : Char) : Splitting :=
  let isSeparator := separators.contains c
  let x' := x.keep c false
  if isSeparator && isSpacing c then { x' with length? := x.length?.or (some x.current.length) }
  else
    { x' with
      length? := if isSeparator && x.afterBlank then x.length? else none
      afterBlank := false }

/-- The splitting with the current field ended by a separator. -/
def Splitting.cut (x : Splitting) (separator : Option Char) : Splitting :=
  match x.left, separator with
  | some 1, some c => { x.keep c false with left := some 0, length? := some x.current.length }
  | left, _ =>
    { x with
      fields := x.current.reverse :: x.fields
      current := []
      present := false
      left := left.map (· - 1) }

/-- The splitting behind a separator, which is a character or the end of an element. -/
def Splitting.separate (x : Splitting) (separator : Option Char) : Splitting :=
  let isBlank := separator.all isSpacing
  if x.afterBlank then { x with afterBlank := isBlank }
  else
    let afterBlank := isBlank && !(x.inList || x.afterList)
    if !x.present && afterBlank then x else { x with afterBlank }.cut separator

/-- The splitting with one more piece. -/
def Splitting.add (separators : Chars) (x : Splitting) : Piece → Splitting
  | .presence => { x with present := true }
  | .value isList => { x with afterBlank := false, inList := isList, afterList := x.inList }
  | .break => x.separate none
  | .char c quoted separable =>
    if !separable then x.keep c quoted
    else if x.left = some 0 then x.keepLast separators c
    else if separators.contains c then x.separate (some c)
    else { x.keep c quoted with afterBlank := false }

/-- The fields that pieces make, so many at most if that is limited. -/
def split (most : Option Nat) (separators : Chars) (ps : List Piece) : List Marked :=
  let x := ps.foldl (Splitting.add separators) (Splitting.start most)
  let last := x.current.reverse.take (x.length?.getD x.current.length)
  let isThere := x.inList || (x.present && !(x.length? = some 0))
  (if isThere then last :: x.fields else x.fields).reverse

/-! ## Names of files -/

/-- The paths that match the parts of a pattern behind a path; a part that is no pattern need only
be there. -/
def matchingPaths (fs : Files) : String → List Marked → List String
  | before, [] => [before]
  | before, part :: rest =>
    let behind (name : String) := before ++ name ++ (if rest.isEmpty then "" else "/")
    if part.isEmpty then matchingPaths fs (before ++ (if rest.isEmpty then "" else "/")) rest
    else if isPattern part then
      match fs.node (if before.isEmpty then "." else before) with
      | .ok n =>
        let entries := if n.allows .read then n.entries else []
        let p := glob part
        let hidden := (part.head?.map (·.1)) == some '.'
        let all := (if n.allows .read then [".", ".."] else []) ++ entries.map (·.1)
        let names := all.filter fun name ↦
          (hidden || name.toList.head? != some '.') && globMatches p (Chars.ofString name)
        names.flatMap fun name ↦
          if rest.isEmpty ∨ fs.isDirectory (before ++ name) then matchingPaths fs (behind name) rest
          else []
      | .error _ => []
    else
      let name := (globbed part).string
      if fs.isThere (before ++ name) then matchingPaths fs (behind name) rest else []
where
  /-- A part without the escapes in it. -/
  globbed (part : Marked) : Chars :=
    (glob part).filterMap fun
      | .char c => some c
      | _ => none

/-- The parts of a marked text between slashes. -/
def slashParts : Marked → List Marked
  | [] => [[]]
  | (c, q) :: rest =>
    match slashParts rest with
    | [] => [[(c, q)]]
    | part :: parts => if c = '/' then [] :: part :: parts else ((c, q) :: part) :: parts

/-- The order of texts by their bytes. -/
def precedes (a b : String) : Bool := !decide (Chars.ofString b < Chars.ofString a)

/-- A field, or the paths that it matches if it matches some. -/
def pathsOf (fs : Files) (field : Marked) : List Chars :=
  if isPattern field then
    match matchingPaths fs "" (slashParts field) with
    | [] => [Marked.chars field]
    | paths => (paths.mergeSort precedes).map Chars.ofString
  else [Marked.chars field]

/-! ## Values of parameters -/

namespace Act

/-- The letters of the options that are set. -/
def optionsShown : Act Chars := do
  let set := (← process).options
  return optionLetters.reverse.filter set.contains

/-- The text of a parameter that is not one of the lists of parameters; nothing if it is unset. -/
def parameter? (name : Chars) : Act (Option Chars) := do
  let p ← process
  match name with
  | ['?'] => return some (number p.status)
  | ['#'] => return some (number p.parameters.length)
  | ['$'] => return some (number p.pid)
  | ['!'] => return p.lastJob.map number
  | ['-'] => return some (← optionsShown)
  | ['0'] => return some p.name
  | name =>
    match number? name with
    | some n => return p.parameters[n - 1]?
    | none => if name = "PPID".toList then return some (number 1) else value? name

/-- The separators of fields. -/
def separators : Act Chars := do return (← value? "IFS".toList).getD " \t\n".toList

/-- What stands between parameters where they are one text. -/
def joint : Act Chars := do return ((← value? "IFS".toList).getD [' ']).take 1

/-- The value of an expression, with the variables set that it sets. -/
def calculate (source : Chars) : Act Chars := do
  let p ← process
  let lookup (name : Chars) : Except Arithmetic.Fault Int :=
    Arithmetic.valueOf (((p.bindings.lookup name).bind (·.value)).getD [])
  match Arithmetic.evaluate lookup source with
  | .ok (n, set) =>
    for (name, x) in set.reverse do assign name (integer x)
    return integer n
  | .error fault => fail (fault.message source)

end Act

open Act

/-! ## Tildes -/

/-- Where a tilde stands for a directory. -/
inductive Tilde where
  | nowhere
  /-- At the front of a word. -/
  | front
  /-- At the front of a value and behind colons in it; a mark tells whether this is such a place. -/
  | assigned (here : Bool)
  deriving DecidableEq

namespace Tilde

/-- Whether a tilde stands for a directory here. -/
def isHere : Tilde → Bool
  | nowhere => false
  | front => true
  | assigned here => here

/-- Where a tilde stands for a directory behind a character. -/
def behind (c : Char) : Tilde → Tilde
  | assigned _ => assigned (c == ':')
  | _ => nowhere

/-- Where a tilde stands for a directory behind a part. -/
def behindPart (t : Tilde) : Part → Tilde
  | .literal false text =>
    match text.getLast? with
    | some c => t.behind c
    | none => t
  | _ => t.behind 'x'

/-- Where a tilde stands for a directory in the argument of an expansion. -/
def inArgument (t : Tilde) (quoted : Bool) : Tilde :=
  if quoted then nowhere
  else
    match t with
    | assigned _ => assigned true
    | _ => front

end Tilde

/-- The directory that a tilde at the front of a text stands for, and what follows it.  A name behind
the tilde asks for the directory of a user.  A mark tells whether nothing follows the text. -/
def tildeDirectory? (home : Option Chars) (t : Tilde) (isEnd : Bool) (text : Chars) :
    Option (Chars × Chars) :=
  match text with
  | '~' :: rest =>
    let colons := t != .front
    let user := rest.takeWhile fun c ↦ c != '/' && !(colons && c == ':')
    let behind := rest.drop user.length
    let directory := if user.isEmpty then home
      else if user = "root".toList then some "/root".toList else none
    if behind.isEmpty && !isEnd then none else directory.map fun d ↦ (d, behind)
  | _ => none

/-- The pieces of an unquoted text; fuel for one step per character. -/
def unquotedPieces (home : Option Chars) (isEnd separable : Bool) : Nat → Tilde → Chars → List Piece
  | 0, _, _ => []
  | _, _, [] => []
  | fuel + 1, t, c :: rest =>
    match (if t.isHere then tildeDirectory? home t isEnd (c :: rest) else none) with
    | some (directory, behind) =>
      directory.map (fun d ↦ .char d true false) ++
        unquotedPieces home isEnd separable fuel (t.behind 'x') behind
    | none =>
      .char c false separable :: unquotedPieces home isEnd separable fuel (t.behind c) rest

/-! ## Expansions -/

/-- The value without the shortest or the longest beginning that matches a pattern.  In a list only
the first element can match, and where all of it is the longest beginning that matches, nothing is
left. -/
def withoutStart (longest : Bool) (p : List Glob) (s : Chars) : Chars :=
  let first := s.takeWhile (· != '\x00')
  let lengths := List.range (first.length + 1)
  if longest && globMatches p first then []
  else
    match (if longest then lengths.reverse else lengths).find? fun n ↦ globMatches p (s.take n) with
    | some n => s.drop n
    | none => s

/-- The value without the shortest or the longest end that matches a pattern.  In a list the end of
any element can match, and what follows it is lost; the longest one is an end of the first element. -/
def withoutEnd (longest : Bool) (p : List Glob) (s : Chars) : Chars :=
  let first := s.takeWhile (· != '\x00')
  let lengths := if longest then List.range (first.length + 1) else (List.range (s.length + 1)).reverse
  match lengths.find? fun n ↦ globMatches p ((s.drop n).takeWhile (· != '\x00')) with
  | some n => s.take n
  | none => s

/-- What gives the output of a command in a word, and whether the word becomes fields. -/
structure Expander where
  output : Command → Act Chars
  splits : Bool

namespace Expander

/-- The pieces of the value of a parameter. -/
def valuePieces (x : Expander) (quoted : Bool) (name value : Chars) : Act (List Piece) := do
  let p ← process
  if quoted && name == ['@'] && x.splits && !p.parameters.isEmpty then return Piece.ofList value
  else return Piece.ofValue quoted value

/-- The value of a parameter; nothing if it is unset. -/
def value? (x : Expander) (quoted : Bool) (name : Chars) : Act (Option Chars) := do
  if name = ['@'] ∨ name = ['*'] then
    let between ← if x.splits && !(quoted && name == ['*']) then pure ['\x00'] else joint
    return some (joinWith between (← process).parameters)
  else parameter? name

/-- The pieces of a parameter with an operator, given the pieces of its argument if there is one. -/
def parameterPieces (x : Expander) (t : Tilde) (quoted : Bool) (name : Chars) (operator : Operator)
    (isBare : Bool) (argument : (splits separable : Bool) → Tilde → Act (List Piece)) :
    Act (List Piece) := do
  let current ← x.value? quoted name
  let value (s : Chars) : Act (List Piece) := x.valuePieces quoted name s
  let isSet (null : Bool) : Bool := current.any fun s ↦ !(null && s.isEmpty)
  let other : Act (List Piece) := argument x.splits (!quoted) (t.inArgument quoted)
  let required : Act Chars := do
    match current with
    | some s => return s
    | none =>
      if ← hasOption 'u' then fail (name.string ++ ": parameter not set") else return []
  let pattern : Act (List Glob) := do return glob (Piece.marked (← argument false false .front))
  match operator with
  | .value => value (← required)
  | .length => do
    let s ← required
    let isList := name = ['@'] || name = ['*']
    let s ← if isList then pure (joinWith (← joint) (← process).parameters) else pure s
    return Piece.ofValue quoted (number s.length)
  | .default null => if isSet null then value (current.getD []) else other
  | .alternative null => if isSet null then other else return []
  | .assigned null =>
    if isSet null then value (current.getD [])
    else do
      let s := Piece.chars (← argument false false (if quoted then .nowhere else .front))
      if isName name then assign name s else fail (name.string ++ ": bad variable name")
      value s
  | .required null =>
    if isSet null then value (current.getD [])
    else do
      let text := Piece.chars (← argument false false (if quoted then .nowhere else .front))
      let text := if !isBare then text.string
        else "parameter not set" ++ if null then " or null" else ""
      fail (name.string ++ ": " ++ text)
  | .withoutStart longest => do
    let s ← required
    value (withoutStart longest (← pattern) s)
  | .withoutEnd longest => do
    let s ← required
    value (withoutEnd longest (← pattern) s)
  | .unknown => fail "Bad substitution"

mutual

/-- The pieces of parts.  In the argument of an unquoted expansion literal text separates fields
too. -/
def pieces (x : Expander) (separable : Bool) (t : Tilde) : List Part → Act (List Piece)
  | [] => return []
  | part :: rest => do
    let first ← partPieces x separable t rest.isEmpty part
    let others ← pieces x separable (t.behindPart part) rest
    return first ++ others

/-- The pieces of a part, which may be the last one. -/
def partPieces (x : Expander) (separable : Bool) (t : Tilde) (isEnd : Bool) :
    Part → Act (List Piece)
  | .literal true text => return .presence :: text.map fun c ↦ .char c true false
  | .literal false text => do
    let home ← Act.value? "HOME".toList
    let ps := unquotedPieces home isEnd separable (text.length + 1) t text
    return if separable then .value false :: ps else ps
  | .command quoted body => do
    let text ← x.output body
    return Piece.ofValue quoted (text.reverse.dropWhile (· == '\n')).reverse
  | .arithmetic quoted expression => do
    let source ← pieces { x with splits := false } false .nowhere expression
    return Piece.ofValue quoted (← calculate (Piece.chars source))
  | .parameter quoted name operator argument =>
    x.parameterPieces t quoted name operator argument.isEmpty
      fun splits separable t ↦ pieces { x with splits } separable t argument

end

end Expander

/-! ## Words -/

/-- The fields of a word. -/
def fields (output : Command → Act Chars) (w : Word) : Act (List Chars) := do
  let ps ← Expander.pieces ⟨output, true⟩ false .front w
  let found := split none (← separators) ps
  if ← hasOption 'f' then return found.map Marked.chars
  else
    let fs ← files
    return found.flatMap (pathsOf fs)

/-- A word as one text, neither split nor matched. -/
def single (output : Command → Act Chars) (t : Tilde) (w : Word) : Act Chars := do
  return Piece.chars (← Expander.pieces ⟨output, false⟩ false t w)

/-- A word as a pattern. -/
def patternOf (output : Command → Act Chars) (w : Word) : Act (List Glob) := do
  return glob (Piece.marked (← Expander.pieces ⟨output, false⟩ false .front w))

end Shell
end FirmwareLane
