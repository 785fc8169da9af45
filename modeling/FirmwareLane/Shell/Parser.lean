import FirmwareLane.Shell.Word

/-!
# Reading commands

A text is read line by line: a line is read as a whole, with the further lines that its commands
need, before any of it is carried out.
-/

set_option autoImplicit false
namespace FirmwareLane
namespace Shell
namespace Parse

/-! ## Words and redirections -/

/-- The lines of input that a delimiter at the front asks for. -/
def here (inner : Bool → Parse Command) (strip : Bool) : Parse Word := do
  skipBlanks
  match ← rest with
  | [] => unexpected none
  | c :: _ => if isMeta c then unexpected none
  let (delimiter, quoted) := plainText (← word inner)
  linesOfInput inner strip quoted delimiter

/-- The redirection at the front, if there is one. -/
def redirect? (inner : Bool → Parse Command) : Parse (Option Redirect) := do
  let s ← rest
  let digits := s.takeWhile Char.isDigit
  let marks := s.drop digits.length
  let descriptor (other : Nat) := (number? digits).getD other
  let target (kind : RedirectKind) (other length : Nat) : Parse (Option Redirect) := do
    advance (digits.length + length)
    skipBlanks
    match ← rest with
    | [] => unexpected none
    | c :: _ =>
      if isMeta c then unexpected none
      else return some (.mk (descriptor other) kind (← word inner))
  match marks with
  | '<' :: '<' :: '-' :: _ => do
    advance (digits.length + 3)
    return some (.mk (descriptor 0) .here (← here inner true))
  | '<' :: '<' :: _ => do
    advance (digits.length + 2)
    return some (.mk (descriptor 0) .here (← here inner false))
  | '<' :: '&' :: _ => target .duplicate 0 2
  | '<' :: '>' :: _ => target .readWrite 0 2
  | '<' :: _ => target .input 0 1
  | '>' :: '>' :: _ => target .append 1 2
  | '>' :: '&' :: _ => target .duplicate 1 2
  | '>' :: '|' :: _ => target .overwrite 1 2
  | '>' :: _ => target .output 1 1
  | _ => return none

/-- The redirections at the front; fuel for one step per redirection. -/
def redirects (inner : Bool → Parse Command) : Nat → Parse (List Redirect)
  | 0 => return []
  | fuel + 1 => do
    skipBlanks
    match ← redirect? inner with
    | none => return []
    | some r => return r :: (← redirects inner fuel)

/-- The name that a value is assigned to at the front, if there is an assignment. -/
def assigned? (s : Chars) : Option Chars :=
  let (name, tail) := takeName s
  if !name.isEmpty && tail.head? == some '=' then some name else none

/-- The parts of a simple command, the last of each kind first. -/
structure Simple where
  assignments : List (Chars × Word)
  words : List Word
  redirects : List Redirect

/-- The parts of the simple command at the front, behind others; fuel for one step per part. -/
def simpleParts (inner : Bool → Parse Command) : Nat → Simple → Parse Simple
  | 0, parts => return parts
  | fuel + 1, parts => do
    if parts.words.isEmpty then atCommand else atArgument
    match ← redirect? inner with
    | some r => simpleParts inner fuel { parts with redirects := r :: parts.redirects }
    | none =>
      let s ← rest
      match s with
      | [] => return parts
      | c :: _ =>
        if isMeta c then return parts
        else
          match (if parts.words.isEmpty then assigned? s else none) with
          | some name => do
            advance (name.length + 1)
            let value ← word inner
            simpleParts inner fuel { parts with assignments := (name, value) :: parts.assignments }
          | none => do
            simpleParts inner fuel { parts with words := (← word inner) :: parts.words }

/-- The words up to the end of a line or a semicolon; fuel for one step per word. -/
def wordsOnLine (inner : Bool → Parse Command) : Nat → Parse (List Word)
  | 0 => return []
  | fuel + 1 => do
    skipBlanks
    match ← rest with
    | [] => return []
    | c :: _ =>
      if isMeta c then return [] else return (← word inner) :: (← wordsOnLine inner fuel)

/-- The patterns of an arm up to its parenthesis; fuel for one step per pattern. -/
def patterns (inner : Bool → Parse Command) : Nat → Parse (List Word)
  | 0 => unexpected none
  | fuel + 1 => do
    skipBlanks
    match ← rest with
    | [] => unexpected none
    | c :: _ =>
      if isMeta c then unexpected none
      else
        let w ← word inner
        skipBlanks
        match ← rest with
        | '|' :: _ => do
          advance 1
          return w :: (← patterns inner fuel)
        | ')' :: _ => do
          advance 1
          return [w]
        | _ => unexpected (some "\")\"")

/-! ## Commands -/

/-- Passes over the separator of two commands, and tells whether there is one and whether it puts
the first one in the background.  A line end separates commands of a body. -/
def separator (inBody : Bool) : Parse (Option Bool) := do
  skipBlanks
  match ← rest with
  | '&' :: '&' :: _ => return none
  | '&' :: _ => do
    advance 1
    return some true
  | ';' :: ';' :: _ => return none
  | ';' :: _ => do
    advance 1
    return some false
  | '\n' :: _ => return if inBody then some false else none
  | _ => return none

mutual

/-- The commands of an expansion, which may end at a parenthesis. -/
def inside : Nat → Bool → Parse Command
  | 0, _ => unexpected none
  | fuel + 1, closing => do
    skipNewlines
    let c ← if ← atEnd then pure .nothing else items true fuel
    if closing then
      skipNewlines
      match ← rest with
      | ')' :: _ => advance 1
      | _ => unexpected (some "\")\"")
    return c

/-- Commands separated from each other; fuel for one step per command. -/
def items (inBody : Bool) : Nat → Parse Command
  | 0 => unexpected none
  | fuel + 1 => do
    let first ← andOr fuel
    match ← separator inBody with
    | none => return first
    | some inBackground =>
      let first := if inBackground then .background first else first
      if inBody then skipNewlines else skipBlanks
      let atLineEnd := (← rest).head? = some '\n' && !inBody
      if atLineEnd || (← atEnd) then return first
      else return .sequence first (← items inBody fuel)

/-- The body of a compound command.  Where the text ends there is none, and what has to follow it is
found missing. -/
def body : Nat → Parse Command
  | 0 => unexpected none
  | fuel + 1 => do
    skipNewlines
    if (← rest).isEmpty then return .nothing
    else if ← atEnd then unexpected none
    else items true fuel

/-- Pipelines that depend on each other. -/
def andOr : Nat → Parse Command
  | 0 => unexpected none
  | fuel + 1 => do andOrBehind fuel (← pipeline fuel)

/-- Pipelines that depend on a command in front of them. -/
def andOrBehind : Nat → Command → Parse Command
  | 0, _ => unexpected none
  | fuel + 1, first => do
    skipBlanks
    match ← rest with
    | '&' :: '&' :: _ => do
      advance 2
      skipNewlines
      andOrBehind fuel (.both first (← pipeline fuel))
    | '|' :: '|' :: _ => do
      advance 2
      skipNewlines
      andOrBehind fuel (.either first (← pipeline fuel))
    | _ => return first

/-- Commands each of which reads what the one before it writes. -/
def pipeline : Nat → Parse Command
  | 0 => unexpected none
  | fuel + 1 => do
    atCommand
    let negated ← accept "!"
    let c ← match ← pipeParts fuel with
      | [c] => pure c
      | parts => pure (.pipe parts)
    return if negated then .negated c else c

/-- The commands of a pipeline. -/
def pipeParts : Nat → Parse (List Command)
  | 0 => unexpected none
  | fuel + 1 => do
    let c ← command fuel
    skipBlanks
    match ← rest with
    | '|' :: '|' :: _ => return [c]
    | '|' :: _ => do
      advance 1
      skipNewlines
      return c :: (← pipeParts fuel)
    | _ => return [c]

/-- A command with its redirections. -/
def command : Nat → Parse Command
  | 0 => unexpected none
  | fuel + 1 => do
    atCommand
    let s ← rest
    let line := (← get).line
    let compound ← match s with
      | '(' :: _ => do
        advance 1
        let c ← body fuel
        skipNewlines
        match ← rest with
        | ')' :: _ => do
          advance 1
          pure (some (.subshell c))
        | _ => unexpected (some "\")\"")
      | s =>
        let name := rawWord s
        if name = "\x7b" then do
          advance 1
          let c ← body fuel
          expect "\x7d"
          pure (some c)
        else if name = "if" then do
          advance 2
          pure (some (← conditional fuel))
        else if name = "while" ∨ name = "until" then do
          advance 5
          let condition ← body fuel
          expect "do"
          let c ← body fuel
          expect "done"
          pure (some (.loop (decide (name = "until")) condition c))
        else if name = "for" then do
          advance 3
          pure (some (← forEach fuel))
        else if name = "case" then do
          advance 4
          pure (some (← select fuel))
        else if reservedWords.contains name then unexpected none
        else pure none
    match compound with
    | some c =>
      match ← redirects (inside fuel) (s.length + 1) with
      | [] => return c
      | rs => return .redirected line c rs
    | none => simple fuel

/-- A simple command, or the definition of a function. -/
def simple : Nat → Parse Command
  | 0 => unexpected none
  | fuel + 1 => do
    let i ← get
    let name := i.rest.takeWhile fun c ↦ !isMeta c
    let behind := (i.rest.drop name.length).dropWhile (· == ' ')
    let isPlain := name.all fun c ↦ !"$\"'\\\x60=".toList.contains c
    match isPlain && !name.isEmpty, behind with
    | true, '(' :: tail =>
      match tail.dropWhile (· == ' ') with
      | ')' :: _ =>
        if isName name && !specialNames.contains (String.ofList name) then do
          advance (i.rest.length - (tail.dropWhile (· == ' ')).length + 1)
          skipNewlines
          return .define i.line name (← command fuel)
        else throw .badFunctionName
      | _ => do
        advance (i.rest.length - tail.length)
        unexpected (some "\")\"")
    | _, _ =>
      let parts ← simpleParts (inside fuel) (i.rest.length + 1) ⟨[], [], []⟩
      if parts.words.isEmpty && parts.assignments.isEmpty && parts.redirects.isEmpty then
        unexpected none
      else
        match (← rest) with
        | '(' :: _ => unexpected none
        | _ =>
          return .simple i.line parts.assignments.reverse parts.words.reverse
            parts.redirects.reverse

/-- What follows the word that begins a conditional command. -/
def conditional : Nat → Parse Command
  | 0 => unexpected none
  | fuel + 1 => do
    let condition ← body fuel
    expect "then"
    let yes ← body fuel
    skipNewlines
    if ← accept "elif" then return .conditional condition yes (← conditional fuel)
    else if ← accept "else" then do
      let no ← body fuel
      expect "fi"
      return .conditional condition yes no
    else do
      expect "fi"
      return .conditional condition yes .nothing

/-- What follows the word that begins a loop over words. -/
def forEach : Nat → Parse Command
  | 0 => unexpected none
  | fuel + 1 => do
    let line := (← get).line
    skipBlanks
    let (name, quoted) := plainText (← word (inside fuel))
    if quoted || !isName name then failBehindLine .badLoopVariable
    skipNewlines
    let words ← if ← accept "in" then do
        let ws ← wordsOnLine (inside fuel) ((← rest).length + 1)
        match ← rest with
        | ';' :: _ => advance 1
        | '\n' :: _ => newline
        | _ => unexpected none
        pure (some ws)
      else do
        match ← rest with
        | ';' :: _ => advance 1
        | _ => pure ()
        pure none
    expect "do"
    let c ← body fuel
    expect "done"
    return .forEach line name words c

/-- What follows the word that begins a selection. -/
def select : Nat → Parse Command
  | 0 => unexpected none
  | fuel + 1 => do
    let line := (← get).line
    skipBlanks
    let w ← word (inside fuel)
    expect "in"
    return .select line w (← arms fuel)

/-- The arms of a selection. -/
def arms : Nat → Parse (List (List Word × Command))
  | 0 => unexpected none
  | fuel + 1 => do
    skipNewlines
    if ← accept "esac" then return []
    else
      match ← rest with
      | '(' :: _ => advance 1
      | _ => pure ()
      let ps ← patterns (inside fuel) ((← rest).length + 1)
      skipNewlines
      let c ← if ← atEnd then pure .nothing else items true fuel
      skipNewlines
      match ← rest with
      | ';' :: ';' :: _ => do
        advance 2
        return (ps, c) :: (← arms fuel)
      | _ => do
        if ← accept "esac" then return [(ps, c)] else unexpected (some "\";;\"")

end

/-- The command on the next line, if there is one. -/
def line : Parse (Option Command) := do
  skipNewlines
  match ← rest with
  | [] => return none
  | s => do
    let c ← items false (8 * s.length + 16)
    skipBlanks
    match ← rest with
    | [] => return some c
    | '\n' :: _ =>
      newline
      return some c
    | _ => unexpected none

/-- The word that stands before what is carried out where each command is shown.  No command can stand in
it: what is in backquotes is nothing, and behind a dollar sign something is missing. -/
def prompt : Parse Word := do
  let inner (closing : Bool) : Parse Command :=
    if closing then throw (.unexpected "end of file" (some "\")\"")) else return .nothing
  parts inner (2 * (← rest).length + 2) .lines []

end Parse

/-- The command on the next line of an input, and the input behind it or behind where it fails. -/
def Input.next (i : Input) : Except SyntaxFault (Option Command) × Input := Parse.line.run i

end Shell
end FirmwareLane
