import FirmwareLane.Shell.Input

/-!
# Reading words

A word is made of parts, and what a character means depends on what it stands in: a word of a command
line, a quotation, lines of input, the argument of an expansion, or an expression.  How the commands
in an expansion are read is given to the functions here.
-/

set_option autoImplicit false
namespace FirmwareLane
namespace Shell

/-- What parts stand in, which tells where they end. -/
inductive Surroundings where
  /-- A word, which ends before a character that ends words. -/
  | word
  /-- A quotation, which ends behind its mark.  It may stand in the argument of an expansion. -/
  | quotation (inArgument : Bool)
  /-- Lines, which end where the text ends. -/
  | lines
  /-- The argument of an expansion, which ends behind a brace. -/
  | argument
  /-- The argument of an expansion in a quotation or in lines.  Marks in it are left out, and no brace
  ends it between them. -/
  | quotedArgument (inLines between : Bool)
  /-- An expression, in which so many parentheses are open; it ends behind two that are not its
  own. -/
  | expression (parentheses : Nat)
  deriving DecidableEq

namespace Surroundings

/-- Whether parts are quoted in their surroundings. -/
def isQuoted : Surroundings → Bool
  | word => false
  | argument => false
  | _ => true

/-- Whether the surroundings are lines of input, or the argument of an expansion in them. -/
def isInLines : Surroundings → Bool
  | lines => true
  | quotedArgument inLines _ => inLines
  | _ => false

/-- Whether a character stands for itself, whatever is around it. -/
def isPlain (x : Surroundings) (c : Char) : Bool :=
  match x with
  | word => !(isMeta c || "\\'\"$\x60".toList.contains c)
  | quotation _ => !"\\\"$\x60".toList.contains c
  | lines => !"\\$\x60".toList.contains c
  | argument => !"\\'\"$\x60\x7d".toList.contains c
  | quotedArgument _ _ => !"\\\"$\x60\x7d".toList.contains c
  | expression _ => !"\\$\x60()".toList.contains c

/-- Whether a backslash before a character is taken away. -/
def escapes (x : Surroundings) (c : Char) : Bool :=
  let always := c = '\\' || c = '$' || c = '\x60'
  match x with
  | word => true
  | argument => true
  | quotation inArgument => always || c = '"' || (c = '\x7d' && inArgument)
  | lines => always
  | quotedArgument _ _ => always || c = '"' || c = '\x7d'
  | expression _ => always || c = '"'

/-- What is missing where a text ends in the surroundings. -/
def fault? : Surroundings → Option SyntaxFault
  | word => none
  | quotation _ => some .unterminatedQuote
  | lines => none
  | argument => some .missingBrace
  | quotedArgument inLines _ => some (if inLines then .missingBrace else .unterminatedQuote)
  | expression _ => some .missingParentheses

/-- The surroundings of the argument of an operator. -/
def ofArgument (x : Surroundings) (operator : Operator) : Surroundings :=
  match operator with
  | .withoutStart _ => .argument
  | .withoutEnd _ => .argument
  | _ => if x.isQuoted then .quotedArgument x.isInLines false else .argument

end Surroundings

/-! ## Pieces of text -/

/-- What stands before the apostrophe that ends a quotation, and behind it. -/
def untilApostrophe (done : Chars) : Chars → Option (Chars × Chars)
  | [] => none
  | c :: rest =>
    if c = '\'' then some (done.reverse, rest) else untilApostrophe (c :: done) rest

/-- What stands before an unescaped backquote, with the escapes in it taken away, and behind it. -/
def untilBackquote (quoted : Bool) (done : Chars) : Chars → Option (Chars × Chars)
  | [] => none
  | '\x60' :: rest => some (done.reverse, rest)
  | '\\' :: '\n' :: rest => untilBackquote quoted done rest
  | '\\' :: c :: rest =>
    if c = '\x60' ∨ c = '$' ∨ c = '\\' ∨ (c = '"' ∧ quoted) then
      untilBackquote quoted (c :: done) rest
    else untilBackquote quoted (c :: '\\' :: done) rest
  | c :: rest => untilBackquote quoted (c :: done) rest

/-- The text behind the end of a quotation; fuel for one step per character. -/
def behindQuotation : Nat → Chars → Chars
  | 0, s => s
  | _, [] => []
  | fuel + 1, '\\' :: s => behindQuotation fuel (s.drop 1)
  | fuel + 1, c :: s => if c = '"' then s else behindQuotation fuel s

/-- The text behind the end of a line, line ends in quotations passed over; a comment may begin where
a word may.  Fuel for one step per character. -/
def behindLine : Nat → Bool → Chars → Chars
  | 0, _, s => s
  | _, _, [] => []
  | fuel + 1, atWord, c :: s =>
    if c = '\n' then s
    else if c = '\\' then behindLine fuel false (s.drop 1)
    else if c = '\'' then behindLine fuel false ((s.dropWhile (· != '\'')).drop 1)
    else if c = '"' then behindLine fuel false (behindQuotation (s.length + 1) s)
    else if c = '#' ∧ atWord then (s.dropWhile (· != '\n')).drop 1
    else behindLine fuel (isMeta c) s

/-- The lines of a text up to one that is a delimiter, and what follows it.  A backslash may join
lines.  Fuel for one step per line. -/
def linesUntil (strip joins : Bool) (delimiter : Chars) : Nat → Bool → Chars → Chars →
    Chars × Chars
  | 0, _, done, s => (done.reverse, s)
  | _, _, done, [] => (done.reverse, [])
  | fuel + 1, isJoined, done, s =>
    let line := s.takeWhile (· != '\n')
    let ending := (s.drop line.length).take 1
    let tail := (s.drop line.length).drop 1
    let line := if strip then line.dropWhile (· == '\t') else line
    if line = delimiter && !isJoined then (done.reverse, tail)
    else
      let goesOn := joins && (line.reverse.takeWhile (· == '\\')).length % 2 == 1
      linesUntil strip joins delimiter fuel goesOn ((line ++ ending).reverse ++ done) tail

namespace Parse

/-! ## Names and operators -/

/-- The parameter that is named at the front, in braces, with whether its length is meant. -/
def parameterName : Parse (Option (Chars × Bool)) := do
  let s ← joined
  let named (s : Chars) : Chars :=
    let name := (takeName s).1
    if name.isEmpty then s.takeWhile Char.isDigit else name
  if !(named s).isEmpty then
    advance (named s).length
    return some (named s, false)
  else
    match s with
    | '#' :: tail =>
      if !(named tail).isEmpty then
        advance ((named tail).length + 1)
        return some (named tail, true)
      else
        match tail with
        | c :: '\x7d' :: _ =>
          if c = '\x7d' then
            advance 1
            return some (['#'], false)
          else if isSpecial c then
            advance 2
            return some ([c], true)
          else
            advance 1
            return some (['#'], false)
        | _ =>
          advance 1
          return some (['#'], false)
    | c :: _ =>
      if isSpecial c then
        advance 1
        return some ([c], false)
      else return none
    | [] => return none

/-- The operator behind the name of a parameter in braces; nothing if the brace follows. -/
def operator? : Parse (Option Operator) := do
  let ofLetter (null : Bool) (c : Char) : Operator :=
    match c with
    | '-' => .default null
    | '+' => .alternative null
    | '=' => .assigned null
    | '?' => .required null
    | _ => .unknown
  match ← joined with
  | '\x7d' :: _ =>
    advance 1
    return none
  | ':' :: c :: _ =>
    advance 2
    return some (ofLetter true c)
  | c :: s =>
    if c = '%' ∨ c = '#' then
      let longest := s.head? == some c
      advance (if longest then 2 else 1)
      return some (if c = '%' then .withoutEnd longest else .withoutStart longest)
    else
      advance 1
      return some (ofLetter false c)
  | [] => return some .unknown

/-! ## Parts -/

/-- The commands of a text that stands on its own. -/
def within (inner : Bool → Parse Command) (text : Chars) (line : Nat) : Parse Command := do
  let outer ← get
  set (Input.ofText text line outer.aliases)
  let c ← inner false
  set outer
  return c

mutual

/-- The parts at the front up to their end, behind other parts in reverse.  `inner` reads the
commands of an expansion, which may end at a parenthesis; fuel for one step per part. -/
def parts (inner : Bool → Parse Command) : Nat → Surroundings → List Part → Parse (List Part)
  | 0, _, _ => throw .unterminatedQuote
  | fuel + 1, x, done => do
    let s ← rest
    let run := s.takeWhile x.isPlain
    if !run.isEmpty then
      advance run.length
      parts inner fuel x (.literal x.isQuoted run :: done)
    else
      match s with
      | [] =>
        match x.fault? with
        | some fault => throw fault
        | none => return done.reverse
      | '\\' :: [] =>
        advance 1
        parts inner fuel x (.literal true ['\\'] :: done)
      | '\\' :: c :: _ =>
        advance 2
        if c = '\n' then parts inner fuel x done
        else
          let text := if x.escapes c then [c] else ['\\', c]
          parts inner fuel x (.literal true text :: done)
      | '\'' :: tail =>
        match untilApostrophe [] tail with
        | some (text, behind) =>
          advance (s.length - behind.length)
          parts inner fuel x (.literal true text :: done)
        | none =>
          advance s.length
          throw .unterminatedQuote
      | '"' :: _ =>
        advance 1
        match x with
        | .quotation _ => return done.reverse
        | .quotedArgument inLines between =>
          parts inner fuel (.quotedArgument inLines !between) done
        | x =>
          let inside ← parts inner fuel (.quotation (x = .argument)) []
          let inside := match inside with
            | [.parameter true ['@'] .value []] => inside
            | inside => .literal true [] :: inside
          parts inner fuel x (inside.reverse ++ done)
      | '$' :: _ =>
        advance 1
        let part ← expansion inner fuel x
        parts inner fuel x (part :: done)
      | '\x60' :: tail =>
        match untilBackquote x.isQuoted [] tail with
        | some (text, behind) =>
          advance (s.length - behind.length)
          let c ← within inner text 1
          parts inner fuel x (.command x.isQuoted c :: done)
        | none =>
          advance s.length
          throw .unterminatedBackquote
      | c :: tail =>
        match x with
        | .argument =>
          advance 1
          return done.reverse
        | .quotedArgument _ false =>
          advance 1
          return done.reverse
        | .expression n =>
          let isEnd := c = ')' && n == 0 && tail.head? == some ')'
          if isEnd then
            advance 2
            return done.reverse
          else
            advance 1
            let n := if c = '(' then n + 1 else n - 1
            parts inner fuel (.expression n) (.literal true [c] :: done)
        | .quotedArgument _ true =>
          advance 1
          parts inner fuel x (.literal true [c] :: done)
        | _ => return done.reverse

/-- The expansion behind a dollar sign. -/
def expansion (inner : Bool → Parse Command) : Nat → Surroundings → Parse Part
  | 0, _ => throw .unterminatedQuote
  | fuel + 1, x => do
    let quoted := x.isQuoted
    match ← joined with
    | '(' :: _ =>
      advance 1
      match ← joined with
      | '(' :: _ =>
        advance 1
        return .arithmetic quoted (← parts inner fuel (.expression 0) [])
      | _ => return .command quoted (← inner true)
    | '\x7b' :: _ =>
      advance 1
      match ← parameterName with
      | none => return .parameter quoted [] .unknown (← parts inner fuel (x.ofArgument .unknown) [])
      | some (name, true) =>
        let operator := if (← joined).head? = some '\x7d' then .length else .unknown
        return .parameter quoted name operator (← parts inner fuel (x.ofArgument .unknown) [])
      | some (name, false) =>
        match ← operator? with
        | none => return .parameter quoted name .value []
        | some operator =>
          let argument ← parts inner fuel (x.ofArgument operator) []
          return .parameter quoted name operator argument
    | s =>
      let (name, _) := takeName s
      if !name.isEmpty then
        advance name.length
        return .parameter quoted name .value []
      else
        match s with
        | c :: _ =>
          if isSpecial c then
            advance 1
            return .parameter quoted [c] .value []
          else return .literal quoted ['$']
        | [] => return .literal quoted ['$']

end

/-- The word at the front. -/
def word (inner : Bool → Parse Command) : Parse Word := do
  parts inner (2 * (← rest).length + 2) .word []

/-- The lines that are the input of a command on the line that is being read, up to a delimiter. -/
def linesOfInput (inner : Bool → Parse Command) (strip quoted : Bool) (delimiter : Chars) :
    Parse Word := do
  let i ← get
  let length := i.rest.length
  let start := match i.behindLines with
    | some n => i.rest.drop (length - n)
    | none => behindLine (length + 1) true i.rest
  let line := i.line + (i.rest.take (length - start.length)).count '\n'
  let (text, behind) := linesUntil strip (!quoted) delimiter (start.length + 1) false [] start
  let i := { i with behindLines := some behind.length }
  if quoted then
    set i
    return [.literal true text]
  else
    set (Input.ofText text line i.aliases)
    let w ← parts inner (2 * text.length + 2) .lines []
    set i
    return w

end Parse
end Shell
end FirmwareLane
