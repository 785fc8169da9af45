import FirmwareLane.Shell.Builtin.Basic
import FirmwareLane.Shell.Expansion

/-!
# Commands for variables, parameters and options

Commands of the shell that set and list variables, parameters, options of the shell and names that
stand for other texts, and that read variables from the input.
-/

set_option autoImplicit false
namespace FirmwareLane
namespace Shell
namespace Builtin

open Act

/-! ## Marks -/

/-- A variable as it is listed. -/
def listing (start : String) (name : Chars) (v : Variable) : Chars :=
  start.toList ++ name ++ (match v.value with
    | some value => '=' :: quote value
    | none => []) ++ ['\n']

/-- The variables in the order of their names. -/
def sorted (bindings : List (Chars × Variable)) : List (Chars × Variable) :=
  bindings.mergeSort fun x y ↦ !decide (y.1 < x.1)

/-- Marks variables, which may be given a value. -/
def mark (command : String) (change : Variable → Variable) (isMarked : Variable → Bool) : Tool :=
  fun words ↦ do
    let a ← arguments "p" "" words
    if a.has 'p' || a.operands.isEmpty then
      for (name, v) in sorted (← process).bindings do
        if isMarked v then say (listing (command ++ " ") name v)
    else
      for w in a.operands do
        let name := w.takeWhile (· != '=')
        if !isName name then fail (Chars.string name ++ ": bad variable name")
        if w.contains '=' then assign name (w.drop (name.length + 1))
        let v := (← variableNamed? name).getD ⟨none, false, false⟩
        putVariable name (change v)
    return 0

/-- Forgets variables or functions. -/
def unset : Tool := fun words ↦ do
  let a ← arguments "vf" "" words
  let forget (name : Chars) : Act Unit :=
    alter fun p ↦ { p with functions := p.functions.filter (·.1 != name) }
  for name in a.operands do
    match a.last? "vf" with
    | some 'f' => forget name
    | _ => do
      if !isName name then fail (Chars.string name ++ ": bad variable name")
      let isThere := (← variableNamed? name).isSome
      Act.unset name
      unless isThere || a.has 'v' do forget name
  return 0

/-- Gives the running function variables of its own. -/
def localize : Tool := fun words ↦ do
  if (← process).locals.isNone then fail "not in a function"
  for w in words do
    let name := w.takeWhile (· != '=')
    let old ← variableNamed? name
    alter fun p ↦ { p with locals := p.locals.map ((name, old) :: ·) }
    if w.contains '=' then assignNamed name (w.drop (name.length + 1))
  return 0

/-! ## Options of the shell -/

/-- The options that have names. -/
def optionNames : List (String × Char) :=
  [("errexit", 'e'), ("noglob", 'f'), ("ignoreeof", 'I'), ("interactive", 'i'), ("monitor", 'm'),
   ("noexec", 'n'), ("stdin", 's'), ("xtrace", 'x'), ("verbose", 'v'), ("vi", 'V'), ("emacs", 'E'),
   ("noclobber", 'C'), ("allexport", 'a'), ("notify", 'b'), ("nounset", 'u'), ("privileged", 'p'),
   ("nolog", '1'), ("debug", '2')]

/-- Lists the options, as commands that would set them or in columns. -/
def listOptions (asCommands : Bool) : Act Unit := do
  let set := (← process).options
  unless asCommands do say "Current option settings\n".toList
  for (name, letter) in optionNames do
    let on := set.contains letter
    let column := name.toList ++ List.replicate (16 - name.length) ' '
    if asCommands then
      say ((if on then "set -o " else "set +o ").toList ++ name.toList ++ ['\n'])
    else say (column ++ (if on then "on" else "off").toList ++ ['\n'])

/-- Sets an option, or takes it away. -/
def setOption (on : Bool) (letter : Char) : Act Unit := do
  if optionLetters.contains letter then
    alter fun p ↦
      let others := p.options.filter (· != letter)
      { p with options := if on then others ++ [letter] else others }
  else fail ("Illegal option -" ++ String.ofList [letter])

/-- Sets the options at the front of words, and gives the other words if they are to be the
parameters; fuel for one step per word. -/
def setOptions : Nat → List Chars → Act (Option (List Chars))
  | 0, _ => return none
  | fuel + 1, words =>
    match words with
    | [] => return none
    | ['-', '-'] :: rest => return some rest
    | ['-'] :: rest => return if rest.isEmpty then none else some rest
    | [sign, 'o'] :: rest =>
      if sign = '-' ∨ sign = '+' then do
        match rest with
        | name :: rest =>
          match optionNames.lookup name.string with
          | some letter => setOption (sign == '-') letter
          | none => fail ("Illegal option -o " ++ name.string)
          setOptions fuel rest
        | [] => do
          listOptions (sign == '+')
          return none
      else return some words
    | (sign :: letters) :: rest =>
      if sign = '-' ∨ sign = '+' then do
        for c in letters do setOption (sign == '-') c
        setOptions fuel rest
      else return some words
    | words => return some words

/-! ## Parameters -/

/-- Makes words the parameters, in which options are looked for from the first one on. -/
def setParameters (parameters : List Chars) : Act Unit :=
  alter fun p ↦ { p with parameters, nextOption := (1, none) }

/-- Sets options and parameters, or lists the variables. -/
def set : Tool := fun words ↦ do
  if words.isEmpty then
    for (name, v) in sorted (← process).bindings do
      if v.value.isSome then say (listing "" name v)
  else
    match ← setOptions (words.length + 1) words with
    | some parameters => setParameters parameters
    | none => pure ()
  return 0

/-- Drops the first parameters. -/
def shift : Tool := fun words ↦ do
  let n ← match words with
    | w :: _ => countOf w
    | [] => pure 1
  let p ← process
  if p.parameters.length < n then fail "can't shift that many"
  else
    setParameters (p.parameters.drop n)
    return 0

/-- What an option letter means to those who look for options. -/
def meaningOf (letter : Char) : Chars → Option Bool
  | [] => none
  | c :: rest =>
    if c = letter then some (rest.head? == some ':')
    else meaningOf letter (if rest.head? = some ':' then rest.drop 1 else rest)
termination_by s => s.length
decreasing_by
  split <;> simp only [List.length_drop, List.length_cons] <;> omega

/-- Gives a variable the next option in words, and another one its value; tells whether there is
none. -/
def nextOption (known name : Chars) (words : List Chars) : Act Bool := do
  let (index, offset) := (← process).nextOption
  let word (i : Nat) : Option Chars := words[i - 1]?
  let current : Chars := match offset with
    | some n => if 1 < index then ((word (index - 1)).getD []).drop n else []
    | none => []
  let finish (index : Nat) (rest : Option Chars) (letter : Char) (ended : Bool) : Act Bool := do
    assign optionIndex (number index)
    assignNamed name [letter]
    let length := ((word (index - 1)).getD []).length
    alter fun p ↦ { p with nextOption := (index, rest.map fun s ↦ length - s.length) }
    return ended
  let quiet := known.head? == some ':'
  let ofLetter (index : Nat) (letter : Char) (rest : Chars) : Act Bool := do
    let fault (text : String) : Act Unit := do
      if quiet then assign "OPTARG".toList [letter]
      else
        warn (Chars.ofString text)
        Act.unset "OPTARG".toList
    match meaningOf letter known with
    | none => do
      fault ("Illegal option -" ++ Chars.string [letter] ++ "\n")
      finish index (some rest) '?' false
    | some false => do
      assign "OPTARG".toList []
      finish index (some rest) letter false
    | some true =>
      match rest, word index with
      | [], none => do
        fault ("No arg for -" ++ Chars.string [letter] ++ " option\n")
        finish index none (if quiet then ':' else '?') false
      | [], some value => do
        assign "OPTARG".toList value
        finish (index + 1) none letter false
      | rest, _ => do
        assign "OPTARG".toList rest
        finish index none letter false
  match current with
  | letter :: rest => ofLetter index letter rest
  | [] =>
    match word index with
    | some ['-', '-'] => finish (index + 1) none '?' true
    | some ('-' :: letter :: rest) => ofLetter (index + 1) letter rest
    | _ => finish index none '?' true

/-- Looks for the next option in the parameters, or in other words. -/
def getopts : Tool := fun words ↦ do
  match ← withoutOptions words with
  | known :: name :: given => do
    let p ← process
    let searched := if given.isEmpty then p.parameters else given
    if searched.length + 1 < p.nextOption.1 then
      alter fun p ↦ { p with nextOption := (1, none) }
    return if ← nextOption known name searched then 1 else 0
  | _ => fail "Usage: getopts optstring var [arg...]"

/-! ## Reading -/

/-- The pieces of a line at the front of a text, in which a backslash escapes what follows, with the
length of the line and whether it has an end; nothing if the line goes on behind the text. -/
def linePieces (raw isAll : Bool) (length : Nat) (done : List Piece) :
    Chars → Option (List Piece × Nat × Bool)
  | [] => if isAll then some (done.reverse, length, false) else none
  | '\\' :: c :: rest =>
    if raw then linePieces raw isAll (length + 1) (.char '\\' false true :: done) (c :: rest)
    else if c = '\n' then linePieces raw isAll (length + 2) (.value false :: done) rest
    else linePieces raw isAll (length + 2) (.value false :: .char c true false :: done) rest
  | '\n' :: _ => some (done.reverse, length + 1, true)
  | c :: rest =>
    if c = '\\' && !raw then linePieces raw isAll (length + 1) done rest
    else
      let piece := if c = '\x00' then [] else [Piece.char c false true]
      linePieces raw isAll (length + 1) (piece ++ done) rest

/-- Reads a line of the input into variables. -/
def read : Tool := fun words ↦ do
  let a ← arguments "r" "p" words
  if a.operands.isEmpty then fail "arg count"
  let raw := a.has 'r'
  let line (isAll : Bool) (s : Chars) := linePieces raw isAll 0 [.value false] s
  let text ← match ← readFront 0 none 1 fun isAll s ↦ (line isAll s).map (·.2.1) with
    | .ok text => pure text
    | .error _ => pure []
  let (ps, _, ended) := (line true text).getD ([], 0, false)
  let values := split (some a.operands.length) (← separators) ps
  for (name, i) in a.operands.zipIdx do
    assignNamed name (((values[i]?).map Marked.chars).getD [])
  return if ended then 0 else 1

/-! ## Names that stand for other texts -/

/-- The place of a name in the list of such names. -/
def aliasRank (name : Chars) : Nat :=
  (name.foldl (fun n c ↦ n + c.toNat) (16 * ((name.head?).getD '\x00').toNat)) % 39

/-- Lists names with the texts that they stand for, or gives names texts. -/
def setAliases : Tool := fun words ↦ do
  let shown (name text : Chars) : Chars := name ++ '=' :: quote text ++ ['\n']
  if words.isEmpty then
    for (name, text) in (← process).aliases.mergeSort fun x y ↦ aliasRank x.1 ≤ aliasRank y.1 do
      say (shown name text)
    return 0
  else
    each words fun w ↦ do
      let length := (w.drop 1).takeWhile (· != '=')
      let name := w.take 1 ++ length
      match w.drop name.length with
      | _ :: text => do
        alter fun p ↦
          { p with
            aliases :=
              if (p.aliases.lookup name).isSome then
                p.aliases.map fun (n, old) ↦ (n, if n = name then text else old)
              else p.aliases ++ [(name, text)] }
        return true
      | [] =>
        match (← process).aliases.lookup w with
        | some text => do
          say (shown w text)
          return true
        | none => do
          complain "alias" (w.string ++ " not found")
          return false

/-- Forgets names that stand for other texts. -/
def unsetAliases : Tool := fun words ↦ do
  let a ← arguments "a" "" words
  if a.has 'a' then
    alter fun p ↦ { p with aliases := [] }
    return 0
  else
    each a.operands fun name ↦ do
      if ((← process).aliases.lookup name).isSome then
        alter fun p ↦ { p with aliases := p.aliases.filter (·.1 != name) }
        return true
      else
        complain "unalias" (name.string ++ " not found")
        return false

end Builtin
end Shell
end FirmwareLane
