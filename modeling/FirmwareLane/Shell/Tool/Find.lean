import FirmwareLane.Shell.Regex
import FirmwareLane.Shell.Tool.Start

/-!
# A tool that searches directories

A tool that goes through the files below paths and does something with those of which a condition
holds.
-/

set_option autoImplicit false
namespace FirmwareLane
namespace Shell
namespace Find

open Act

/-! ## Conditions -/

/-- A condition on a file, which may do something. -/
inductive Condition where
  | name (p : List Glob) (ignoreCase : Bool)
  | path (p : List Glob) (ignoreCase : Bool)
  | expression (r : Regex) (ignoreCase : Bool)
  | kind (letters : Chars)
  | empty
  /-- Permissions: all of them and no others, all of them, or one of them. -/
  | permission (mark : Option Char) (mode : Nat)
  /-- A size in blocks of so many bytes, compared. -/
  | size (block : Nat) (order : Ordering) (n : Nat)
  /-- A number of names, compared. -/
  | names (order : Ordering) (n : Nat)
  | allows (p : Node.Permission)
  /-- Whether a file is the one of another name. -/
  | same (identity : Nat) (place : Place)
  | print (mark : Char)
  | printForm (form : Chars)
  | delete
  | quit
  | command (words : List Chars)
  /-- A command of a number that is carried out once for all files. -/
  | together (number : Nat)
  | prune
  | always (holds : Bool)
  | not (a : Condition)
  | and (a b : Condition)
  | or (a b : Condition)
  /-- Both, of which the second counts. -/
  | then (a b : Condition)

/-- Why words are no condition. -/
inductive Fault where
  | unknown (w : Chars)
  | missing (w : Chars)
  | badKind (c : Char)
  | badSize (w : Chars)
  | badMode (w : Chars)
  | badArgument (w value : Chars)
  | badDepth (w value : Chars)
  | missingParenthesis
  | missingAfter (w : Chars)
  | unexpectedParenthesis
  | notFound (w : Chars) (fault : Files.Fault)
  | regex (fault : RegexFault)

/-- The wording of a fault. -/
def Fault.message : Fault → String
  | .unknown w => "unknown predicate \x60" ++ w.string ++ "'"
  | .missing w => "missing argument to \x60" ++ w.string ++ "'"
  | .badKind c => "Unknown argument to -type: " ++ Chars.string [c]
  | .badSize w => "invalid -size type \x60" ++ Chars.string (w.drop (w.length - 1)) ++ "'"
  | .badMode w => "invalid mode '" ++ w.string ++ "'"
  | .badArgument w value => "invalid argument \x60" ++ value.string ++ "' to \x60" ++ w.string ++ "'"
  | .badDepth w value => "Expected a positive decimal integer argument to " ++ w.string ++
      ", but got '" ++ value.string ++ "'"
  | .missingParenthesis =>
    "invalid expression; I was expecting to find a ')' somewhere but did not see one."
  | .missingAfter w => "expected an expression after '" ++ w.string ++ "'"
  | .unexpectedParenthesis => "invalid expression; you have used a binary operator '-o' with " ++
      "nothing before it."
  | .notFound w fault => "'" ++ w.string ++ "': " ++ fault.reason
  | .regex fault => fault.message

/-- What words ask for: a condition, what bounds the depth, and the commands that are carried out once
for all files. -/
structure Asked where
  deepest : Option Nat
  shallowest : Nat
  deepFirst : Bool
  extended : Bool
  together : List (List Chars)

/-- A reader of conditions. -/
abbrev Reading (α : Type) := ExceptT Fault (StateM Asked) α

/-- A number that is compared, with what is behind it. -/
def compared (s : Chars) : Ordering × Chars × Chars :=
  let (order, s) := match s with
    | '+' :: s => (Ordering.gt, s)
    | '-' :: s => (Ordering.lt, s)
    | s => (Ordering.eq, s)
  let digits := s.takeWhile Char.isDigit
  (order, digits, s.drop digits.length)

/-- The condition on a size that a word stands for. -/
def size? (s : Chars) : Option Condition :=
  let (order, digits, behind) := compared s
  let blocks : List (Chars × Nat) :=
    [([], 512), (['b'], 512), (['c'], 1), (['w'], 2), (['k'], 1024), (['M'], 1024 * 1024),
      (['G'], 1024 * 1024 * 1024)]
  match number? digits, blocks.lookup behind with
  | some n, some block => some (.size block order n)
  | _, _ => none

/-- The condition on permissions that a word stands for. -/
def permission? (s : Chars) : Option Condition :=
  let (mark, text) := match s with
    | '-' :: rest => (some '-', rest)
    | '/' :: rest => (some '/', rest)
    | s => (none, s)
  (Tool.newMode? false 0 0 text).map (.permission mark)

/-- The expression that a pattern of a name is. -/
def globOf (ignoreCase : Bool) (s : Chars) : List Glob :=
  glob (Marked.ofChars false (if ignoreCase then s.map Char.toLower else s))

/-- The words that stand alone, and the conditions that they are. -/
def simpleConditions : List (String × Condition) :=
  [("-empty", .empty), ("-print", .print '\n'), ("-print0", .print '\x00'), ("-delete", .delete),
   ("-prune", .prune), ("-true", .always true), ("-false", .always false), ("-quit", .quit),
   ("-readable", .allows .read), ("-writable", .allows .write), ("-executable", .allows .search),
   ("-ls", .print '\n'), ("-daystart", .always true), ("-mount", .always true),
   ("-xdev", .always true), ("-noleaf", .always true), ("-warn", .always true),
   ("-nowarn", .always true), ("-nouser", .always false), ("-nogroup", .always false),
   ("-follow", .always true)]

/-- The condition that a word with an argument is. -/
def valuedCondition? (fs : Files) (extended : Bool) (w : String) (v : Chars) :
    Option (Except Fault Condition) :=
  let word := w.toList
  let bad : Except Fault Condition := .error (.badArgument word v)
  let expression (ignoreCase : Bool) : Except Fault Condition :=
    match Regex.read ⟨extended, true⟩ v with
    | .ok r => .ok (.expression r ignoreCase)
    | .error fault => .error (.regex fault)
  let time : Except Fault Condition :=
    let (order, digits, behind) := compared v
    match number? digits, behind with
    | some n, [] => .ok (.always (compare 0 n == order))
    | _, _ => bad
  match w with
  | "-name" => some (.ok (.name (globOf false v) false))
  | "-iname" => some (.ok (.name (globOf true v) true))
  | "-path" | "-wholename" => some (.ok (.path (globOf false v) false))
  | "-ipath" | "-iwholename" => some (.ok (.path (globOf true v) true))
  | "-regex" => some (expression false)
  | "-iregex" => some (expression true)
  | "-type" | "-xtype" =>
    some <| match v.find? fun c ↦ !"bcdpflsD,".toList.contains c with
      | some c => .error (.badKind c)
      | none => .ok (.kind v)
  | "-size" => some <| match size? v with
      | some c => .ok c
      | none => .error (.badSize v)
  | "-perm" => some <| match permission? v with
      | some c => .ok c
      | none => .error (.badMode v)
  | "-links" =>
    let (order, digits, behind) := compared v
    some <| match number? digits, behind with
      | some n, [] => .ok (.names order n)
      | _, _ => bad
  | "-mtime" | "-atime" | "-ctime" | "-mmin" | "-amin" | "-cmin" => some time
  | "-inum" => some (.ok (.always false))
  | "-user" => some (.ok (.always (v = "nobody".toList || v = "65534".toList)))
  | "-group" => some (.ok (.always (v = "nogroup".toList || v = "65534".toList)))
  | "-uid" | "-gid" => some (.ok (.always (v = "65534".toList)))
  | "-newer" | "-anewer" | "-cnewer" =>
    some <| match fs.present true v.string with
      | .ok _ => .ok (.always false)
      | .error fault => .error (.notFound v fault)
  | "-samefile" =>
    some <| match fs.present false v.string with
      | .ok (place, n) => .ok (.same n.identity place)
      | .error fault => .error (.notFound v fault)
  | "-printf" => some (.ok (.printForm v))
  | _ => none

/-- The command behind a word, and the rest. -/
def commandBehind (w : Chars) (rest : List Chars) : Reading (Condition × List Chars) := do
  let isEnd (before : Option Chars) (x : Chars) : Bool :=
    x = [';'] || (x = ['+'] && before = some "\x7b\x7d".toList)
  let rec go (done : List Chars) : List Chars → Option (List Chars × Chars × List Chars)
    | [] => none
    | x :: rest => if isEnd done.head? x then some (done.reverse, x, rest) else go (x :: done) rest
  match go [] rest with
  | some ([], _, _) => throw (.missing w)
  | some (command, [';'], rest) => return (.command command, rest)
  | some (command, _, rest) => do
    let asked ← get
    set { asked with together := asked.together ++ [command.dropLast] }
    return (.together asked.together.length, rest)
  | none => throw (.missing w)

mutual

/-- The conditions of a list, and the rest; fuel for one step per word. -/
def list (fs : Files) : Nat → Option Chars → List Chars → Reading (Condition × List Chars)
  | 0, _, _ => throw .missingParenthesis
  | fuel + 1, before, ws => do
    let (a, rest) ← any fs fuel before ws
    match rest with
    | [','] :: rest => do
      let (b, rest) ← list fs fuel (some [',']) rest
      return (.then a b, rest)
    | rest => return (a, rest)

/-- Conditions one of which has to hold. -/
def any (fs : Files) : Nat → Option Chars → List Chars → Reading (Condition × List Chars)
  | 0, _, _ => throw .missingParenthesis
  | fuel + 1, before, ws => do
    let (a, rest) ← all fs fuel before ws
    match rest with
    | w :: rest' =>
      if w = "-o".toList || w = "-or".toList then do
        let (b, rest) ← any fs fuel (some w) rest'
        return (.or a b, rest)
      else return (a, rest)
    | [] => return (a, [])

/-- Conditions all of which have to hold. -/
def all (fs : Files) : Nat → Option Chars → List Chars → Reading (Condition × List Chars)
  | 0, _, _ => throw .missingParenthesis
  | fuel + 1, before, ws => do
    let (a, rest) ← one fs fuel before ws
    match rest with
    | [] => return (a, [])
    | w :: rest' =>
      if w = "-o".toList || w = "-or".toList || w = [','] || w = [')'] then return (a, rest)
      else if w = "-a".toList || w = "-and".toList then do
        let (b, rest) ← all fs fuel (some w) rest'
        return (.and a b, rest)
      else do
        let (b, rest) ← all fs fuel none rest
        return (.and a b, rest)

/-- One condition. -/
def one (fs : Files) : Nat → Option Chars → List Chars → Reading (Condition × List Chars)
  | 0, _, _ => throw .missingParenthesis
  | fuel + 1, before, ws =>
    match ws with
    | [] => throw (.missingAfter (before.getD []))
    | w :: rest => do
      let text := w.string
      if text = "!" || text = "-not" then do
        let (a, rest) ← one fs fuel (some w) rest
        return (.not a, rest)
      else if text = "(" then do
        let (a, rest) ← list fs fuel (some w) rest
        match rest with
        | [')'] :: rest => return (a, rest)
        | _ => throw .missingParenthesis
      else if text = "-exec" || text = "-execdir" || text = "-ok" then commandBehind w rest
      else if text = "-depth" || text = "-d" then do
        modify fun asked ↦ { asked with deepFirst := true }
        return (.always true, rest)
      else if text = "-maxdepth" || text = "-mindepth" then
        match rest with
        | [] => throw (.missing w)
        | v :: rest =>
          match number? v with
          | none => throw (.badDepth w v)
          | some n => do
            modify fun asked ↦
              if text = "-maxdepth" then { asked with deepest := some n }
              else { asked with shallowest := n }
            return (.always true, rest)
      else if text = "-regextype" then
        match rest with
        | [] => throw (.missing w)
        | v :: rest => do
          modify fun asked ↦ { asked with extended := v.string.endsWith "extended" }
          return (.always true, rest)
      else
        match simpleConditions.lookup text with
        | some c => do
          if text = "-delete" then modify fun asked ↦ { asked with deepFirst := true }
          return (c, rest)
        | none =>
          let extended := (← get).extended
          match valuedCondition? fs extended text ((rest.head?).getD []), rest with
          | some (.ok c), _ :: rest => return (c, rest)
          | some (.error fault), _ :: _ => throw fault
          | some _, [] => throw (.missing w)
          | none, _ => throw (if text = ")" then .unexpectedParenthesis else .unknown w)

end

/-- Whether a condition does something besides holding or not. -/
def Condition.acts : Condition → Bool
  | .print _ => true
  | .printForm _ => true
  | .delete => true
  | .quit => false
  | .command _ => true
  | .together _ => true
  | .not a => a.acts
  | .and a b => a.acts || b.acts
  | .or a b => a.acts || b.acts
  | .then a b => a.acts || b.acts
  | _ => false

/-! ## Files -/

/-- A file that is looked at: the path that was given, the path that it is shown by, how deep it is below
the given one, and where it is. -/
structure Entry where
  given : Chars
  path : Chars
  depth : Nat
  place : Place
  node : Node

/-- What is known while directories are searched. -/
structure Searching where
  runner : Runner
  /-- The files for the commands that are carried out once, with the numbers of the commands, the last
  file first. -/
  together : List (Nat × Chars)
  failed : Bool
  /-- Whether what is below the file is left out. -/
  pruned : Bool
  quit : Bool

/-- The letter of a kind of node. -/
def kindLetter : Node → Char
  | .file _ _ _ => 'f'
  | .link _ => 'l'
  | .directory _ _ => 'd'
  | .device _ => 'c'

/-- The text that a format makes of a file. -/
def formText (root : Node) (e : Entry) : Chars → Chars
  | '%' :: c :: rest =>
    (match c with
      | 'p' => e.path
      | 'f' => Tool.lastName e.path
      | 'h' => Tool.directoryName e.path
      | 'P' => ((e.path.drop e.given.length).dropWhile (· == '/'))
      | 'H' => e.given
      | 'd' => number e.depth
      | 's' => number (Tool.sizeOf e.node)
      | 'y' => [kindLetter e.node]
      | 'm' => Text.Numeral.write 8 e.node.mode
      | 'M' => Tool.modeText e.node
      | 'n' => number (Tool.namesOf root e.node)
      | 'u' => (Tool.ownersAt e.place).1.1.toList
      | 'g' => (Tool.ownersAt e.place).2.1.toList
      | 'U' => number (Tool.ownersAt e.place).1.2
      | 'G' => number (Tool.ownersAt e.place).2.2
      | 'l' => match e.node with
        | .link target => Chars.ofString target
        | _ => []
      | '%' => ['%']
      | c => ['%', c]) ++ formText root e rest
  | '\\' :: c :: rest =>
    (match c with
      | 'n' => ['\n']
      | 't' => ['\t']
      | '0' => ['\x00']
      | '\\' => ['\\']
      | c => ['\\', c]) ++ formText root e rest
  | c :: rest => c :: formText root e rest
  | [] => []

/-- Removes a file, and tells whether that could be done. -/
def delete (e : Entry) : Act Bool := do
  let failFor (reason : String) : Act Bool := do
    complain "find" ("cannot delete '" ++ e.path.string ++ "': " ++ reason)
    return false
  let fail (fault : Files.Fault) : Act Bool := failFor fault.reason
  let fs ← files
  match fs.root.at? e.place with
  | none => fail .notFound
  | some node =>
    if e.path = ['.'] then return true
    else if Tool.lastName e.path = ['.'] then failFor "Invalid argument"
    else if !fs.mayChange e.place then fail .denied
    else if !node.entries.isEmpty then fail .notEmpty
    else
      reshape fun root ↦ root.erase e.place
      return true

/-- Carries out a command; tells whether it succeeded. -/
def carryOut (runner : Runner) (words : List Chars) : Act Bool := do
  match ← outcome (Tool.startNamed runner "find" "'" "'" words) with
  | .ok status => return status = 0
  | .error (.killed pid signal) =>
    if pid = (← process).pid || pid = Builtin.everyProcess then throw (.killed pid signal)
    else return false
  | .error flow => throw flow

/-- Whether a condition holds of a file. -/
def holds (e : Entry) : Condition → Searching → Act (Searching × Bool)
  | .name p ignoreCase, x =>
    let name := Tool.lastName e.path
    return (x, globMatches p (if ignoreCase then name.map Char.toLower else name))
  | .path p ignoreCase, x =>
    return (x, globMatches p (if ignoreCase then e.path.map Char.toLower else e.path))
  | .expression r ignoreCase, x =>
    let found := Regex.ends ⟨e.path.toArray, ignoreCase, false⟩ r [0]
    return (x, found.contains e.path.length)
  | .kind letters, x => return (x, letters.contains (kindLetter e.node))
  | .empty, x => return (x, match e.node with
      | .file _ b _ => b.isEmpty
      | .directory _ es => es.isEmpty
      | _ => false)
  | .permission mark m, x => return (x, match mark with
      | some '-' => e.node.mode &&& m == m
      | some _ => m == 0 || e.node.mode &&& m != 0
      | none => e.node.mode == m)
  | .size block order count, x =>
    return (x, compare ((Tool.sizeOf e.node + block - 1) / block) count == order)
  | .names order count, x => do
    return (x, compare (Tool.namesOf (← files).root e.node) count == order)
  | .allows p, x => return (x, e.node.allows p)
  | .same identity place, x =>
    return (x, e.place = place || (identity != 0 && e.node.identity = identity))
  | .print mark, x => do
    say (e.path ++ [mark])
    return (x, true)
  | .printForm form, x => do
    say (formText (← files).root e form)
    return (x, true)
  | .delete, x => do
    if ← delete e then return (x, true) else return ({ x with failed := true }, false)
  | .quit, x => return ({ x with quit := true }, true)
  | .command words, x => do
    let filled := words.map fun w ↦ Tool.substituted "\x7b\x7d".toList e.path (w.length + 1) w
    return (x, ← carryOut x.runner filled)
  | .together n, x => return ({ x with together := (n, e.path) :: x.together }, true)
  | .prune, x => return ({ x with pruned := true }, true)
  | .always b, x => return (x, b)
  | .not a, x => do
    let (x, b) ← holds e a x
    return (x, !b)
  | .and a b, x => do
    let (x, fine) ← holds e a x
    if fine && !x.quit then holds e b x else return (x, fine && !x.quit)
  | .or a b, x => do
    let (x, fine) ← holds e a x
    if fine || x.quit then return (x, true) else holds e b x
  | .then a b, x => do
    let (x, _) ← holds e a x
    holds e b x

/-- Goes through a file and what is below it; fuel bounds how deep directories stand in each other.  A
mark tells whether links are followed. -/
def visit (asked : Asked) (follows : Bool) (condition : Condition) :
    Nat → Entry → Searching → Act Searching
  | 0, _, x => return x
  | fuel + 1, e, x => do
    if x.quit then return x
    let isShown := asked.shallowest ≤ e.depth
    let look (x : Searching) : Act Searching := do
      let node := ((← files).root.at? e.place).getD e.node
      if isShown && !x.quit then return (← holds { e with node } condition x).1 else return x
    let x ← if asked.deepFirst then pure x else look { x with pruned := false }
    let isLeft := x.pruned || x.quit || asked.deepest.any fun d ↦ d ≤ e.depth
    let below (x : Searching) : Act Searching := do
      if isLeft || !e.node.isDirectory then return x
      else
        match (← files).root.at? e.place with
        | none => do
          complain "find" ("'" ++ e.path.string ++ "': " ++ Files.Fault.notFound.reason)
          return { x with failed := true }
        | some node =>
          if !(node.allows .read) then do
            complain "find" ("'" ++ e.path.string ++ "': " ++ Files.Fault.denied.reason)
            return { x with failed := true }
          else do
            let mut y := x
            for (name, child) in Tool.unsorted node do
              let front := if e.path.getLast? = some '/' then e.path else e.path ++ ['/']
              let path := front ++ Chars.ofString name
              let fs ← files
              let target := if follows then (fs.present true path.string).toOption else none
              let (place, found) := target.getD (e.place ++ [name], child)
              y ← visit asked follows condition fuel ⟨e.given, path, e.depth + 1, place, found⟩ y
            return y
    let x ← below x
    if asked.deepFirst then look { x with pruned := false } else return { x with pruned := false }

end Find

namespace Tool

open Act Find

/-- Searches directories. -/
def find (runner : Runner) : Tool := fun words ↦ do
  let isOption (w : Chars) : Bool := ["-H", "-L", "-P"].contains w.string
  let options := words.takeWhile isOption
  let words := words.drop options.length
  let isPath (w : Chars) : Bool :=
    (w.head? != some '-' || w.length = 1) && w != ['!'] && w != ['('] && w != [')'] && w != [',']
  let paths := words.takeWhile isPath
  let rest := words.drop paths.length
  let fs ← files
  let start : Asked := ⟨none, 0, false, false, []⟩
  let reading : Find.Reading (Find.Condition × List Chars) :=
    if rest.isEmpty then return (.always true, [])
    else Find.list fs (4 * rest.length + 8) none rest
  let fail (text : String) : Act Nat := do
    complain "find" text
    return 1
  match StateT.run (ExceptT.run reading) start with
  | (.error fault, _) => fail fault.message
  | (.ok (_, w :: _), _) =>
    fail (if w = [')'] then "invalid expression; you have too many ')'"
      else Find.Fault.message (.unknown w))
  | (.ok (condition, []), asked) => do
    let follows := options.contains "-L".toList
    let condition := if condition.acts then condition else .and condition (.print '\n')
    let mut x : Searching := ⟨runner, [], false, false, false⟩
    for path in (if paths.isEmpty then [['.']] else paths) do
      match (← files).present (follows || options.contains "-H".toList) (Chars.string path) with
      | .error fault =>
        complain "find" ("'" ++ Chars.string path ++ "': " ++ fault.reason)
        x := { x with failed := true }
      | .ok (place, n) => x ← visit asked follows condition deepest ⟨path, path, 0, place, n⟩ x
    let mut failed := x.failed
    for (command, i) in asked.together.zipIdx do
      let found := (x.together.reverse.filter (·.1 == i)).map (·.2)
      unless found.isEmpty do
        unless ← carryOut runner (command ++ found) do failed := true
    return if failed then 1 else 0

end Tool
end Shell
end FirmwareLane
