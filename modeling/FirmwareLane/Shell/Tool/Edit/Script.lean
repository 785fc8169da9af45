import FirmwareLane.Shell.Regex

/-!
# Scripts that edit lines

A script is a list of commands, each for some lines.  This module holds what a script says and how it
is read.
-/

set_option autoImplicit false
namespace FirmwareLane
namespace Shell
namespace Edit

/-! ## Commands -/

/-- What a text is searched for: an expression, or the last one that was looked for. -/
structure Sought where
  expression : Option Regex
  ignoreCase : Bool
  /-- Whether every line of a text has a start and an end. -/
  byLine : Bool

/-- Which lines a command is for. -/
inductive Address where
  | line (n : Nat)
  /-- Every so many lines from one on. -/
  | step (first step : Nat)
  | last
  | found (sought : Sought)
  /-- So many lines behind the first one. -/
  | behind (n : Nat)
  /-- The next line whose number is a multiple. -/
  | multiple (n : Nat)

/-- A change of case: of all that follows, or of the next character. -/
inductive CaseChange where
  | upper
  | lower
  | none
  | upperNext
  | lowerNext
  deriving DecidableEq, Repr

/-- A part of a replacement. -/
inductive Insert where
  | char (c : Char)
  | group (n : Nat)
  | change (c : CaseChange)

/-- A substitution. -/
structure Substitution where
  sought : Sought
  replacement : List Insert
  /-- The number of the match that is replaced first. -/
  first : Nat
  all : Bool
  print : Bool
  /-- The file that a changed line is written to. -/
  file : Option Chars

/-- What a command does. -/
inductive Action where
  | nothing
  | openBlock
  | closeBlock
  | label (name : Chars)
  /-- Goes on at a label, or at the end, perhaps only if something was replaced or if nothing was. -/
  | jump (condition : Option Bool) (name : Chars)
  | append (text : Chars)
  | insert (text : Chars)
  | replace (text : Chars)
  | substitute (s : Substitution)
  | translate (table : List (Char × Char))
  | print
  | printFirst
  | delete
  | deleteFirst
  | next
  | appendNext
  | quit (status : Nat) (silent : Bool)
  | number
  | name
  | list (width : Option Nat)
  | hold
  | appendHold
  | get
  | appendGet
  | exchange
  | clear
  | readFile (name : Chars)
  | readLine (name : Chars)
  | write (name : Chars)
  | writeFirst (name : Chars)

/-- A command: the lines it is for, or not for, and what it does. -/
structure Command where
  first : Option Address
  second : Option Address
  negated : Bool
  action : Action

/-! ## Faults -/

/-- Why a text is no script. -/
inductive Fault where
  | unknownCommand (c : Char)
  | extraCharacters
  | unexpectedComma
  | badFirstAddress
  | manyNegations
  | lineZero
  | unmatchedBrace
  | unexpectedBrace
  | missingLabel
  | labelAddress
  | commentAddress
  | oneAddress
  | expectedBackslash
  | unterminated (c : Char)
  | unterminatedAddress
  | unknownOption
  | manyOptions (what : String)
  | zeroNumber
  | badReference (n : Nat)
  | differentLengths
  | missingName
  | missingCommand
  | regex (fault : RegexFault)
  | newerVersion
  deriving DecidableEq, Repr

/-- The wording of a fault. -/
def Fault.message : Fault → String
  | .unknownCommand c => "unknown command: \x60" ++ Chars.string [c] ++ "'"
  | .extraCharacters => "extra characters after command"
  | .unexpectedComma => "unexpected \x60,'"
  | .badFirstAddress => "invalid usage of +N or ~N as first address"
  | .manyNegations => "multiple \x60!'s"
  | .lineZero => "invalid usage of line address 0"
  | .unmatchedBrace => "unmatched \x60\x7b'"
  | .unexpectedBrace => "unexpected \x60\x7d'"
  | .missingLabel => "\":\" lacks a label"
  | .labelAddress => ": doesn't want any addresses"
  | .commentAddress => "comments don't accept any addresses"
  | .oneAddress => "command only uses one address"
  | .expectedBackslash => "expected \\ after \x60a', \x60c' or \x60i'"
  | .unterminated c => "unterminated \x60" ++ String.ofList [c] ++ "' command"
  | .unterminatedAddress => "unterminated address regex"
  | .unknownOption => "unknown option to \x60s'"
  | .manyOptions what => "multiple " ++ what ++ " options to \x60s' command"
  | .zeroNumber => "number option to \x60s' command may not be zero"
  | .badReference n => "invalid reference \\" ++ (number n).string ++ " on \x60s' command's RHS"
  | .differentLengths => "strings for \x60y' command are different lengths"
  | .missingName => "missing filename in r/R/w/W commands"
  | .missingCommand => "missing command"
  | .regex fault => fault.message
  | .newerVersion => "expected newer version of sed"

/-! ## Reading -/

/-- A text that is read, and how many characters of it were read. -/
structure Cursor where
  rest : Chars
  position : Nat

/-- A reader of scripts. -/
abbrev Reading (α : Type) := ExceptT Fault (StateM Cursor) α

namespace Reading

/-- The next character, if there is one. -/
def take : Reading (Option Char) := do
  match ← get with
  | ⟨c :: rest, n⟩ => do
    set (Cursor.mk rest (n + 1))
    return some c
  | ⟨[], _⟩ => return none

/-- Gives a character back. -/
def back (c : Option Char) : Reading Unit :=
  match c with
  | some c => modify fun x ↦ ⟨c :: x.rest, x.position - 1⟩
  | none => return

/-- The characters at the front that pass a test. -/
def takeWhile (test : Char → Bool) : Reading Chars := do
  let x ← get
  let found := x.rest.takeWhile test
  set (Cursor.mk (x.rest.drop found.length) (x.position + found.length))
  return found

/-- Whether a character is a blank within a line. -/
def isBlank (c : Char) : Bool := c = ' ' || c = '\t'

/-- Whether a character separates words. -/
def isSpace (c : Char) : Bool := c = ' ' || ('\t' ≤ c && c ≤ '\r')

/-- The next character that is no blank. -/
def takeBehindBlanks : Reading (Option Char) := do
  let _ ← takeWhile isBlank
  take

/-- The number that begins with a digit. -/
def takeNumber (c : Char) : Reading Nat := do
  return (number? (c :: (← takeWhile Char.isDigit))).getD 0

/-- Passes over the end of a command. -/
def endCommand : Reading Unit := do
  match ← takeBehindBlanks with
  | none => return
  | some c =>
    if c = '\x7d' || c = '#' then back c
    else if c = '\n' || c = ';' then return
    else throw .extraCharacters

/-- The rest of a line, which must be the name of a file. -/
def takeFileName : Reading Chars := do
  let _ ← takeWhile isBlank
  let name ← takeWhile (· != '\n')
  if name.isEmpty then throw .missingName
  let _ ← take
  return name

/-- The name of a label behind blanks. -/
def takeLabel : Reading Chars := do
  let _ ← takeWhile isBlank
  takeWhile fun c ↦ !isSpace c && c != ';' && c != '\x7d'

/-! ### Texts between marks -/

/-- The length of a set at the front of a text behind its bracket, with the closing bracket, if it is
closed on the line. -/
def setLength? (s : Chars) : Option Nat :=
  let start := (if s.head? = some '^' then 1 else 0)
  let start := if (s.drop start).head? = some ']' then start + 1 else start
  go (s.length + 1) start (s.drop start)
where
  /-- The length of a set so far and of what is behind; fuel for one step per character. -/
  go : Nat → Nat → Chars → Option Nat
    | 0, _, _ => none
    | fuel + 1, n, s =>
      match s with
      | [] => none
      | '\n' :: _ => none
      | ']' :: _ => some (n + 1)
      | '[' :: c :: rest =>
        if c = ':' || c = '.' || c = '=' then
          let inside := rest.takeWhile (· != c)
          match rest.drop inside.length with
          | _ :: ']' :: tail => go fuel (n + inside.length + 4) tail
          | _ => go fuel (n + 1) (c :: rest)
        else go fuel (n + 1) (c :: rest)
      | _ :: rest => go fuel (n + 1) rest

/-- The text up to a mark, the mark, and the number of characters that were read; nothing if there is no
mark on the line.  Escaped marks lose their backslash.  Within a set of an expression a mark is a
character; fuel for one step per character. -/
def marked (mark : Char) (isExpression : Bool) : Nat → Chars → Nat → Chars → Option Chars × Nat
  | 0, _, n, _ => (none, n)
  | fuel + 1, done, n, s =>
    match s with
    | [] => (none, n)
    | '\\' :: c :: rest =>
      if c = mark then
        let kept := if !isExpression && c = '&' then ['&', '\\'] else [c]
        marked mark isExpression fuel (kept ++ done) (n + 2) rest
      else if c = 'n' && isExpression then marked mark isExpression fuel ('\n' :: done) (n + 2) rest
      else if c = '\n' then
        marked mark isExpression fuel (if isExpression then '\n' :: done else '\n' :: '\\' :: done)
          (n + 2) rest
      else marked mark isExpression fuel (c :: '\\' :: done) (n + 2) rest
    | ['\\'] => (none, n + 1)
    | c :: rest =>
      if c = mark then (some done.reverse, n + 1)
      else if c = '\n' then (none, n)
      else
        match (if c = '[' && isExpression then setLength? rest else none) with
        | some length =>
          let inside := rest.take length
          marked mark isExpression fuel (escapedLines inside [] ++ c :: done) (n + 1 + length)
            (rest.drop length)
        | none =>
          if c = '[' && isExpression then (none, n + 1 + (rest.takeWhile (· != '\n')).length)
          else marked mark isExpression fuel (c :: done) (n + 1) rest
where
  /-- A set in reverse, in which escapes stand for line ends and marks. -/
  escapedLines : Chars → Chars → Chars
    | '\\' :: 'n' :: rest, done => escapedLines rest ('\n' :: done)
    | '\\' :: c :: rest, done =>
      if c = mark then escapedLines rest (c :: done) else escapedLines (c :: rest) ('\\' :: done)
    | c :: rest, done => escapedLines rest (c :: done)
    | [], done => done

/-- The text up to a mark, which must be there. -/
def takeMarked (mark : Char) (isExpression : Bool) (fault : Fault) : Reading Chars := do
  let x ← get
  let (found, n) := marked mark isExpression (x.rest.length + 1) [] 0 x.rest
  set (Cursor.mk (x.rest.drop n) (x.position + n))
  match found with
  | some text => return text
  | none => throw fault

/-! ### Escapes -/

/-- The digits to a base that stand for a character behind a letter. -/
def coded (base most : Nat) (s : Chars) : Option (Char × Chars) :=
  let digits := (s.take most).takeWhile fun c ↦ (Text.Numeral.read? base [c.toLower]).isSome
  if digits.isEmpty then none
  else
    let n := (Text.Numeral.read? base (digits.map Char.toLower)).getD 0
    some (Char.ofNat (n % 256), s.drop digits.length)

/-- The character that an escape behind a backslash stands for, and the rest. -/
def escape? (s : Chars) : Option (Char × Chars) :=
  match s with
  | 'a' :: rest => some ('\x07', rest)
  | 'f' :: rest => some ('\x0c', rest)
  | 'n' :: rest => some ('\n', rest)
  | 'r' :: rest => some ('\r', rest)
  | 't' :: rest => some ('\t', rest)
  | 'v' :: rest => some ('\x0b', rest)
  | 'c' :: c :: rest => some (Char.ofNat (c.toUpper.toNat ^^^ 64), rest)
  | 'd' :: rest => coded 10 3 rest
  | 'o' :: rest => coded 8 3 rest
  | 'x' :: rest => coded 16 2 rest
  | _ => none

/-- An expression with its escapes for characters replaced; fuel for one step per character. -/
def withoutEscapes : Nat → Chars → Chars
  | 0, s => s
  | _, [] => []
  | fuel + 1, '\\' :: rest =>
    match escape? rest with
    | some (c, rest) =>
      let isSpecial := "*.[]\\^$+?|()\x7b\x7d".toList.contains c
      (if isSpecial then ['\\', c] else [c]) ++ withoutEscapes fuel rest
    | none =>
      match rest with
      | c :: rest => '\\' :: c :: withoutEscapes fuel rest
      | [] => ['\\']
  | fuel + 1, c :: rest => c :: withoutEscapes fuel rest

/-- The parts of a replacement; fuel for one step per character. -/
def inserts : Nat → Chars → List Insert
  | 0, _ => []
  | _, [] => []
  | fuel + 1, '\\' :: rest =>
    match escape? rest, rest with
    | some (c, rest), _ => .char c :: inserts fuel rest
    | none, c :: rest =>
      let part : Insert :=
        if c.isDigit then .group (c.toNat - 48)
        else
          match c with
          | 'L' => .change .lower
          | 'U' => .change .upper
          | 'E' => .change .none
          | 'l' => .change .lowerNext
          | 'u' => .change .upperNext
          | c => .char c
      part :: inserts fuel rest
    | none, [] => [.char '\\']
  | fuel + 1, '&' :: rest => .group 0 :: inserts fuel rest
  | fuel + 1, c :: rest => .char c :: inserts fuel rest

/-- The text that is inserted, up to the end of a line that no backslash stands before, with a line
feed, and the number of characters that were read; fuel for one step per character. -/
def insertedText : Nat → Chars → Nat → Chars → Chars × Nat
  | 0, done, n, _ => (done.reverse, n)
  | fuel + 1, done, n, s =>
    match s with
    | [] => (('\n' :: done).reverse, n)
    | ['\\'] => (done.reverse, n + 1)
    | '\n' :: _ => (('\n' :: done).reverse, n + 1)
    | '\\' :: rest =>
      match escape? rest, rest with
      | some (c, tail), _ => insertedText fuel (c :: done) (n + 1 + rest.length - tail.length) tail
      | none, c :: tail => insertedText fuel (c :: done) (n + 2) tail
      | none, [] => (done.reverse, n + 1)
    | c :: rest => insertedText fuel (c :: done) (n + 1) rest

/-- The text behind the name of a command that inserts it. -/
def takeText : Reading Chars := do
  match ← takeBehindBlanks with
  | none => throw .expectedBackslash
  | some '\n' => throw .expectedBackslash
  | some '\\' => do
    let blanks ← takeWhile isBlank
    match ← take with
    | some '\n' => inserted
    | some c => do
      back c
      modify fun x ↦ ⟨blanks ++ x.rest, x.position - blanks.length⟩
      if blanks.isEmpty then
        let _ ← take
        let text ← inserted
        return c :: text
      else inserted
    | none => return []
  | some c => do
    back c
    inserted
where
  /-- The text up to the end of its last line. -/
  inserted : Reading Chars := do
    let x ← get
    let (text, n) := insertedText (x.rest.length + 1) [] 0 x.rest
    set (Cursor.mk (x.rest.drop n) (x.position + n))
    return text

/-! ### Addresses and commands -/

/-- What a text between marks is a search for. -/
def soughtOf (extended ignoreCase byLine : Bool) (text : Chars) : Reading Sought := do
  if text.isEmpty then return ⟨none, ignoreCase, byLine⟩
  else
    match Regex.read ⟨extended, false⟩ (withoutEscapes (text.length + 1) text) with
    | .ok r => return ⟨some r, ignoreCase, byLine⟩
    | .error fault => throw (.regex fault)

/-- The flags behind an expression in an address; fuel for one step per flag. -/
def addressFlags : Nat → Bool → Bool → Reading (Bool × Bool)
  | 0, i, m => return (i, m)
  | fuel + 1, i, m => do
    match ← takeBehindBlanks with
    | some 'I' => addressFlags fuel true m
    | some 'M' => addressFlags fuel i true
    | c => do
      back c
      return (i, m)

/-- The address that begins with a character, if it is one. -/
def takeAddress (extended : Bool) (c : Option Char) : Reading (Option Address) := do
  let expression (mark : Char) : Reading (Option Address) := do
    let text ← takeMarked mark true .unterminatedAddress
    let (i, m) ← addressFlags 8 false false
    return some (.found (← soughtOf extended i m text))
  match c with
  | some '$' => return some .last
  | some '/' => expression '/'
  | some '\\' => do
    match ← take with
    | some mark => expression mark
    | none => throw .unterminatedAddress
  | some c =>
    if c.isDigit then do
      let n ← takeNumber c
      match ← takeBehindBlanks with
      | some '~' => do
        match ← takeBehindBlanks with
        | some d => do
          let step ← if d.isDigit then takeNumber d else do
            back d
            pure 0
          return some (if step = 0 then .line n else .step n step)
        | none => return some (.line n)
      | d => do
        back d
        return some (.line n)
    else if c = '+' || c = '~' then do
      match ← takeBehindBlanks with
      | some d =>
        if d.isDigit then do
          let n ← takeNumber d
          return some (if c = '+' then .behind n else .multiple n)
        else do
          back d
          return none
      | none => return none
    else return none
  | none => return none

/-- The options behind a substitution, on top of those so far; fuel for one step per option. -/
def substitutionOptions : Nat → Substitution → Option Nat → Reading (Substitution × Option Nat)
  | 0, s, n => return (s, n)
  | fuel + 1, s, n => do
    match ← take with
    | none => return (s, n)
    | some c =>
      if c = 'i' || c = 'I' then
        substitutionOptions fuel { s with sought := { s.sought with ignoreCase := true } } n
      else if c = 'm' || c = 'M' then
        substitutionOptions fuel { s with sought := { s.sought with byLine := true } } n
      else if c = 'p' then
        if s.print then throw (.manyOptions "\x60p'")
        else substitutionOptions fuel { s with print := true } n
      else if c = 'g' then
        if s.all then throw (.manyOptions "\x60g'")
        else substitutionOptions fuel { s with all := true } n
      else if c = 'w' then return ({ s with file := some (← takeFileName) }, n)
      else if c.isDigit then do
        if n.isSome then throw (.manyOptions "number")
        let k ← takeNumber c
        if k = 0 then throw .zeroNumber
        substitutionOptions fuel s (some k)
      else if c = ' ' then substitutionOptions fuel s n
      else if c = '\x7d' || c = '#' then do
        back c
        return (s, n)
      else if c = '\n' || c = ';' then return (s, n)
      else throw .unknownOption

/-- The greatest number of a group in a replacement. -/
def greatestGroup (parts : List Insert) : Nat :=
  parts.foldl (fun n part ↦
    match part with
    | .group k => max n k
    | _ => n) 0

/-- A substitution behind its name. -/
def takeSubstitution (extended : Bool) : Reading Action := do
  match ← take with
  | none => throw (.unterminated 's')
  | some mark => do
    let text ← takeMarked mark true (.unterminated 's')
    let replacement ← takeMarked mark false (.unterminated 's')
    let parts := inserts (replacement.length + 1) replacement
    let (s, n) ← substitutionOptions (text.length + (← get).rest.length + 1)
      ⟨⟨none, false, false⟩, parts, 1, false, false, none⟩ none
    let sought ← soughtOf extended s.sought.ignoreCase s.sought.byLine text
    if let some r := sought.expression then
      let k := greatestGroup parts
      if r.groupCount < k then throw (.badReference k)
    return .substitute { s with sought, first := n.getD 1 }

/-- The characters of one side of a translation; fuel for one step per character. -/
def translated : Nat → Chars → Chars
  | 0, _ => []
  | _, [] => []
  | fuel + 1, '\\' :: rest =>
    match escape? rest, rest with
    | some (c, rest), _ => c :: translated fuel rest
    | none, c :: rest => c :: translated fuel rest
    | none, [] => ['\\']
  | fuel + 1, c :: rest => c :: translated fuel rest

/-- A translation behind its name. -/
def takeTranslation : Reading Action := do
  match ← take with
  | none => throw (.unterminated 'y')
  | some mark => do
    let one ← takeMarked mark false (.unterminated 'y')
    let two ← takeMarked mark false (.unterminated 'y')
    let one := translated (one.length + 1) one
    let two := translated (two.length + 1) two
    if one.length ≠ two.length then throw .differentLengths
    endCommand
    return .translate (List.zip one two)

/-- The commands that are one letter. -/
def simpleActions : List (Char × Action) :=
  [('=', .number), ('d', .delete), ('D', .deleteFirst), ('F', .name), ('g', .get), ('G', .appendGet),
   ('h', .hold), ('H', .appendHold), ('n', .next), ('N', .appendNext), ('p', .print),
   ('P', .printFirst), ('z', .clear), ('x', .exchange)]

/-- A number behind the name of a command, if there is one, and the end of the command. -/
def takeNumberAndEnd : Reading (Option Nat) := do
  match ← takeBehindBlanks with
  | some c => do
    let n ← if c.isDigit then do pure (some (← takeNumber c)) else do
      back c
      pure none
    endCommand
    return n
  | none => return none

/-- What a command of a name does; `hasRange` tells whether it is for a range of lines. -/
def takeAction (extended hasRange : Bool) (c : Char) : Reading Action := do
  match simpleActions.lookup c with
  | some action => do
    endCommand
    return action
  | none =>
    match c with
    | '\x7b' => return .openBlock
    | 's' => takeSubstitution extended
    | 'y' => takeTranslation
    | 'a' => return .append (← takeText)
    | 'i' => return .insert (← takeText)
    | 'c' => return .replace (← takeText)
    | 'r' => return .readFile (← takeFileName)
    | 'R' => return .readLine (← takeFileName)
    | 'w' => return .write (← takeFileName)
    | 'W' => return .writeFirst (← takeFileName)
    | 'l' => return .list (← takeNumberAndEnd)
    | 'q' => do
      if hasRange then throw .oneAddress
      return .quit ((← takeNumberAndEnd).getD 0) false
    | 'Q' => do
      if hasRange then throw .oneAddress
      return .quit ((← takeNumberAndEnd).getD 0) true
    | 'b' => jump none
    | 't' => jump (some true)
    | 'T' => jump (some false)
    | 'v' => do
      let version ← takeLabel
      let _ ← takeWhile fun c ↦ c = ' '
      if '4' < (version.head?).getD '0' then throw .newerVersion
      endCommand
      return .nothing
    | c => throw (.unknownCommand c)
where
  /-- A jump behind its name. -/
  jump (condition : Option Bool) : Reading Action := do
    let name ← takeLabel
    endCommand
    return .jump condition name

/-- The addresses at the front, and the character behind them. -/
def takeAddresses (extended : Bool) (c : Option Char) :
    Reading (Option Address × Option Address × Option Char) := do
  match ← takeAddress extended c with
  | none => return (none, none, c)
  | some first => do
    match first with
    | .behind _ => throw .badFirstAddress
    | .multiple _ => throw .badFirstAddress
    | _ => pure ()
    let c ← takeBehindBlanks
    let (second, c) ← if c = some ',' then do
        match ← takeAddress extended (← takeBehindBlanks) with
        | some a => pure (some a, ← takeBehindBlanks)
        | none => throw .unexpectedComma
      else pure (none, c)
    let isZero := match first, second with
      | .line 0, some (.found _) => false
      | .line 0, _ => true
      | _, _ => false
    if isZero then throw .lineZero
    return (some first, second, c)

/-- The commands of a script behind those so far, the last of them first.  `depths` has the place of every
open block; fuel for one step per command. -/
def commands (extended : Bool) : Nat → List Nat → List Command → Reading (List Command)
  | 0, _, done => return done.reverse
  | fuel + 1, blocks, done => do
    let _ ← takeWhile fun c ↦ c = ';' || isSpace c
    match ← take with
    | none =>
      match blocks with
      | [] => return done.reverse
      | at_ :: _ => do
        set (Cursor.mk [] at_)
        throw .unmatchedBrace
    | some c => do
      let (first, second, c) ← takeAddresses extended (some c)
      let (negated, c) ← if c = some '!' then do
          let c ← takeBehindBlanks
          if c = some '!' then throw .manyNegations
          pure (true, c)
        else pure (false, c)
      let add (action : Action) : List Command := ⟨first, second, negated, action⟩ :: done
      match c with
      | none => throw .missingCommand
      | some '#' => do
        if first.isSome then throw .commentAddress
        let _ ← takeWhile (· != '\n')
        commands extended fuel blocks done
      | some '\x7d' => do
        if blocks.isEmpty || first.isSome then throw .unexpectedBrace
        endCommand
        commands extended fuel (blocks.drop 1) (add .closeBlock)
      | some ':' => do
        if first.isSome then throw .labelAddress
        let name ← takeLabel
        if name.isEmpty then throw .missingLabel
        let _ ← takeWhile isBlank
        commands extended fuel blocks (add (.label name))
      | some c => do
        let position := (← get).position
        let action ← takeAction extended second.isSome c
        let blocks := match action with
          | .openBlock => position :: blocks
          | _ => blocks
        commands extended fuel blocks (add action)

/-- The commands of a text; the error has the number of characters that were read. -/
def run (extended : Bool) (text : Chars) : Except (Fault × Nat) (List Command) :=
  let (result, x) := StateT.run (ExceptT.run (commands extended (text.length + 1) [] [])) ⟨text, 0⟩
  result.mapError fun fault ↦ (fault, x.position)

end Reading
end Edit
end Shell
end FirmwareLane
