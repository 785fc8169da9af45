import FirmwareLane.Shell.Builtin.Signal
import FirmwareLane.Shell.Tool.Listing

/-!
# Tools that start programs

Tools that wait, and that start other programs: in time, in another environment, or with words of the
input as arguments.
-/

set_option autoImplicit false
namespace FirmwareLane
namespace Shell
namespace Tool

open Act

/-! ## Waiting -/

/-- The number of milliseconds that a duration stands for; no number stands for one without end. -/
def duration? (s : Chars) : Option (Option Nat) :=
  let whole := s.takeWhile Char.isDigit
  let behind := s.drop whole.length
  let (fraction, rest) := match behind with
    | '.' :: rest => (rest.takeWhile Char.isDigit, rest.dropWhile Char.isDigit)
    | rest => ([], rest)
  let milliseconds := 1000 * (number? whole).getD 0 +
    (number? ((fraction ++ "000".toList).take 3)).getD 0
  let units : List (Chars × Nat) := [([], 1), (['s'], 1), (['m'], 60), (['h'], 3600), (['d'], 86400)]
  if ["inf", "infinity"].contains (Chars.string (s.map Char.toLower)) then some none
  else if whole.isEmpty && fraction.isEmpty then none
  else (units.lookup rest).map fun unit ↦ some (unit * milliseconds)

/-- Waits. -/
def sleep (runner : Runner) : Tool := fun words ↦
  withArguments "sleep" ⟨"", "", []⟩ words fun a ↦ do
    match a.operands.find? fun w ↦ (duration? w).isNone with
    | some w => misused "sleep" ("invalid time interval '" ++ w.string ++ "'")
    | none =>
      if a.operands.isEmpty then misused "sleep" "missing operand"
      else do
        runner.catchUp
        match a.operands.mapM fun w ↦ (duration? w).bind id with
        | some durations => do
          pass (durations.foldl (· + ·) 0)
          return 0
        | none => throw .timeUp

/-! ## Starting -/

/-- Starts the program that the words name, or complains in the name of another program, with text
before and behind the name. -/
def startNamed (runner : Runner) (program before behind : String) : Tool := fun words ↦ do
  match words with
  | [] => misusedWith 125 program "missing operand"
  | name :: _ =>
    match ← runner.obstacle? name with
    | none => runner.start words
    | some fault => do
      complain program (before ++ name.string ++ behind ++ ": " ++ fault.reason)
      return if fault = .notFound then 127 else 126

/-- Starts a program under a limit of time, which ends it by a signal. -/
def startInTime (runner : Runner) (a : Arguments) (signal milliseconds : Nat) (command : List Chars) :
    Act Nat := do
  let start := startNamed runner "timeout" "failed to run command '" "'" command
  let s ← get
  let limit := min s.limit (s.now + milliseconds)
  set { s with limit }
  let result ← outcome (aside start)
  modify fun t ↦ { t with limit := s.limit }
  match result with
  | .ok status => return status
  | .error flow =>
    if flow = .timeUp ∧ limit < s.limit then do
      modify fun t ↦ { t with now := limit }
      if a.has 'v' then
        complain "timeout" ("sending signal " ++ (Builtin.signalName signal).string ++
          " to command '" ++ Chars.string ((command.head?).getD []) ++ "'")
      if signal = 9 then do
        let pid := (← get).nextPid
        throw (.killed pid 9)
      else return if a.has 'p' then 128 + signal else 124
    else throw flow

/-- Starts a program that has to end in time. -/
def timeout (runner : Runner) : Tool := fun words ↦
  withLeadingOr 125 "timeout"
    ⟨"vpf", "ks",
      [("kill-after", 'k'), ("signal", 's'), ("verbose", 'v'), ("preserve-status", 'p'),
        ("foreground", 'f')]⟩ words fun a ↦ do
    let signal := match a.value? 's' with
      | none => some 15
      | some w =>
        let name := w.map Char.toUpper
        Builtin.signal? 0 ((without? "SIG".toList name).getD name)
    match a.operands, signal with
    | d :: command@(_ :: _), some signal =>
      match duration? d with
      | none => misusedWith 125 "timeout" ("invalid time interval '" ++ d.string ++ "'")
      | some (some 0) => startNamed runner "timeout" "failed to run command '" "'" command
      | some none => startNamed runner "timeout" "failed to run command '" "'" command
      | some (some d) => startInTime runner a signal d command
    | _, none =>
      misusedWith 125 "timeout" (Chars.string ((a.value? 's').getD []) ++ ": invalid signal")
    | _, _ => do
      warn "Try 'timeout --help' for more information.\n".toList
      return 125

/-- Starts a program with another priority, which changes nothing, or shows the priority. -/
def nice (runner : Runner) : Tool := fun words ↦
  let isOld (w : Chars) : Bool := w.head? = some '-' && 1 < w.length && (w.drop 1).all Char.isDigit
  let words := match words with
    | w :: rest => if isOld w then "-n".toList :: w.drop 1 :: rest else words
    | [] => []
  withLeadingOr 125 "nice" ⟨"", "n", [("adjustment", 'n')]⟩ words fun a ↦ do
    match a.operands, (a.value? 'n').map integer? with
    | _, some none => do
      complain "nice" ("invalid adjustment '" ++ Chars.string ((a.value? 'n').getD []) ++ "'")
      return 125
    | [], some _ => misusedWith 125 "nice" "a command must be given with an adjustment"
    | [], none => do
      say ['0', '\n']
      return 0
    | command, _ => startNamed runner "nice" "'" "'" command

/-- Starts a program behind options of another one. -/
def startBehind (runner : Runner) (program before behind : String) (known : Options) : Tool :=
  fun words ↦
    withLeadingOr 125 program known words fun a ↦ startNamed runner program before behind a.operands

/-! ## Environments -/

/-- The name and the value in a text with an equals sign. -/
def binding? (s : Chars) : Option (Chars × Chars) :=
  if s.contains '=' then some (s.takeWhile (· != '='), (s.dropWhile (· != '=')).drop 1) else none

/-- The exported variables. -/
def environment : Act (List (Chars × Chars)) := do
  return (← process).bindings.filterMap fun (name, v) ↦
    if v.exported then v.value.map fun value ↦ (name, value) else none

/-- An environment with a variable put into it. -/
def withBinding (all : List (Chars × Chars)) (name value : Chars) : List (Chars × Chars) :=
  if (all.lookup name).isSome then all.map fun (n, v) ↦ (n, if n = name then value else v)
  else all ++ [(name, value)]

/-- The environment that the leading operands make of one, and the other operands. -/
def withBindings (all : List (Chars × Chars)) :
    List Chars → List (Chars × Chars) × List Chars
  | [] => (all, [])
  | w :: rest =>
    match binding? w with
    | some (name, value) => withBindings (withBinding all name value) rest
    | none => (all, w :: rest)

/-- The words of a text at blanks; what stands between quotation marks is one word.  Fuel for one step per
character. -/
def inputWords : Nat → Option Chars → Chars → List Chars
  | 0, _, _ => []
  | _, none, [] => []
  | _, some w, [] => [w.reverse]
  | fuel + 1, current, c :: rest =>
    let soFar := current.getD []
    if c = ' ' ∨ c = '\t' ∨ c = '\n' then
      match current with
      | some w => w.reverse :: inputWords fuel none rest
      | none => inputWords fuel none rest
    else if c = '\'' ∨ c = '"' then
      let inside := rest.takeWhile (· != c)
      inputWords fuel (some (inside.reverse ++ soFar)) (rest.drop (inside.length + 1))
    else if c = '\\' then
      match rest with
      | d :: rest => inputWords fuel (some (d :: soFar)) rest
      | [] => inputWords fuel current []
    else inputWords fuel (some (c :: soFar)) rest

/-- Starts a program in another environment, or shows the environment. -/
def env (runner : Runner) : Tool := fun words ↦ do
  let known : Options :=
    ⟨"i0v", "uCS",
      [("ignore-environment", 'i'), ("unset", 'u'), ("null", '0'), ("chdir", 'C'),
        ("split-string", 'S'), ("debug", 'v')]⟩
  let words := match words with
    | ['-'] :: rest => "-i".toList :: rest
    | words => words
  withLeadingOr 125 "env" known words fun a ↦ do
    let operands := match a.operands with
      | ['-'] :: rest => rest
      | operands => operands
    let split := (a.value? 'S').map fun s ↦ inputWords (s.length + 1) none s
    let isEmpty := a.has 'i' || a.operands.head? == some ['-']
    let before ← if isEmpty then pure [] else environment
    let kept := before.filter fun (name, _) ↦ !(a.values 'u').contains name
    let (all, command) := withBindings kept ((split.getD []) ++ operands)
    match command with
    | [] => do
      for (name, value) in all do
        say (name ++ '=' :: value ++ [if a.has '0' then '\x00' else '\n'])
      return 0
    | command =>
      if a.has '0' then misusedWith 125 "env" "cannot specify --null (-0) with command"
      else
        let fs ← files
        match (a.value? 'C').map fun d ↦ (d, fs.present true d.string) with
        | some (d, .error fault) => do
          complain "env" ("cannot change directory to '" ++ d.string ++ "': " ++ fault.reason)
          return 125
        | found => do
          let bindings := all.map fun (name, value) ↦ (name, Variable.mk (some value) true false)
          alter fun p ↦ { p with bindings }
          if let some (_, .ok (place, _)) := found then alter fun p ↦ { p with place }
          startNamed runner "env" "'" "'" command

/-- Shows variables of the environment. -/
def printenv : Tool := fun words ↦
  withLeadingOr 2 "printenv" ⟨"0", "", [("null", '0')]⟩ words fun a ↦ do
    let all ← environment
    let ending := [if a.has '0' then '\x00' else '\n']
    if a.operands.isEmpty then
      for (name, value) in all do say (name ++ '=' :: value ++ ending)
      return 0
    else
      each a.operands fun name ↦ do
        match all.lookup name with
        | some value => do
          say (value ++ ending)
          return true
        | none => return false

/-! ## Words of the input as arguments -/

/-- A text with every occurrence of another one replaced; fuel for one step per character. -/
def substituted (old new : Chars) : Nat → Chars → Chars
  | 0, s => s
  | _, [] => []
  | fuel + 1, c :: rest =>
    if !old.isEmpty && old.isPrefixOf (c :: rest) then
      new ++ substituted old new fuel ((c :: rest).drop old.length)
    else c :: substituted old new fuel rest

/-- The groups of so many elements that a list makes; fuel for one step per group. -/
def groupsOf {α : Type} (n : Nat) : Nat → List α → List (List α)
  | 0, _ => []
  | _, [] => []
  | fuel + 1, xs => xs.take n :: groupsOf n fuel (xs.drop n)

/-- The quotation mark in a text that none follows on its line; fuel for one step per character. -/
def unmatched? : Nat → Chars → Option Char
  | 0, _ => none
  | _, [] => none
  | fuel + 1, c :: rest =>
    if c = '\'' ∨ c = '"' then
      let inside := rest.takeWhile fun d ↦ d != c && d != '\n'
      if (rest.drop inside.length).head? = some c then unmatched? fuel (rest.drop (inside.length + 1))
      else some c
    else if c = '\\' then unmatched? fuel (rest.drop 1)
    else unmatched? fuel rest

/-- What is said of a quotation mark that none follows. -/
def unmatchedMessage (mark : Char) : String :=
  "unmatched " ++ (if mark = '"' then "double" else "single") ++
    " quote; by default quotes are special to xargs unless you use the -0 option"

/-- Lines joined with those that follow them where they end in a blank. -/
def logicalLines : List Chars → List Chars
  | line :: next :: rest =>
    if line.getLast? = some ' ' || line.getLast? = some '\t' then
      logicalLines ((line ++ next) :: rest)
    else line :: logicalLines (next :: rest)
  | lines => lines
termination_by lines => lines.length

/-- The character that a text stands for as a separator. -/
def separatorOf (s : Chars) : Char :=
  match s with
  | '\\' :: 'n' :: _ => '\n'
  | '\\' :: 't' :: _ => '\t'
  | '\\' :: '0' :: _ => '\x00'
  | s => (s.head?).getD '\n'

/-- The words that the input holds, each with the number of its line if lines count. -/
def xargsItems (a : Arguments) (text : Chars) : List (List Chars) :=
  let isWord (w : Chars) : Bool := !w.isEmpty
  let parted (c : Char) : List (List Chars) :=
    let all := pieces c text
    (if all.getLast? = some [] then all.dropLast else all).map ([·])
  let bare (l : Chars) : Chars := l.dropWhile fun c ↦ c = ' ' || c = '\t'
  if a.has '0' then parted '\x00'
  else
    match a.value? 'd' with
    | some d => parted (separatorOf d)
    | none =>
      if (a.value? 'I').isSome then
        (((linesOf text).map bare).filter isWord).map fun l ↦
          [(inputWords (l.length + 1) (some []) (quotedBlanks (l.length + 1) l)).flatten]
      else
        let upTo := match a.value? 'E' with
          | some e => fun (ws : List Chars) ↦ if e.isEmpty then ws else ws.takeWhile (· != e)
          | none => fun ws ↦ ws
        if (a.value? 'L').isSome then
          ((logicalLines (linesOf text)).map fun l ↦ inputWords (l.length + 1) none l).filter
            fun ws ↦ !ws.isEmpty
        else (upTo (inputWords (text.length + 1) none text)).map ([·])
where
  /-- A text with backslashes before its blanks outside quotation marks; fuel for one step per
  character. -/
  quotedBlanks : Nat → Chars → Chars
    | 0, s => s
    | fuel + 1, s =>
      match s with
      | [] => []
      | '\\' :: c :: rest => '\\' :: c :: quotedBlanks fuel rest
      | c :: rest =>
        if c = ' ' || c = '\t' then '\\' :: c :: quotedBlanks fuel rest
        else if c = '\'' || c = '"' then
          let inside := rest.takeWhile (· != c)
          c :: inside ++ (rest.drop inside.length).take 1 ++
            quotedBlanks fuel (rest.drop (inside.length + 1))
        else c :: quotedBlanks fuel rest

/-- The commands that words of the input make of a command. -/
def xargsCalls (a : Arguments) (command : List Chars) (items : List (List Chars)) :
    List (List Chars) :=
  match a.value? 'I' with
  | some mark => items.map fun item ↦
      command.map fun w ↦ substituted mark item.flatten (w.length + 1) w
  | none =>
    match (a.last? "nL").bind fun c ↦ (a.value? c).bind number? with
    | some n => (groupsOf (max n 1) (items.length + 1) items).map fun g ↦ command ++ g.flatten
    | none => if items.isEmpty && a.has 'r' then [] else [command ++ items.flatten]

/-- The options of `xargs`. -/
def xargsOptions : Options :=
  ⟨"0rtxpi?", "nILPdsEa",
    [("null", '0'), ("no-run-if-empty", 'r'), ("verbose", 't'), ("exit", 'x'), ("max-args", 'n'),
      ("replace", 'i'), ("max-lines", 'L'), ("max-procs", 'P'), ("delimiter", 'd'),
      ("max-chars", 's'), ("arg-file", 'a'), ("eof", 'E')]⟩

/-- What is wrong with a number that an option of `xargs` has, if something is. -/
def xargsFault? (a : Arguments) : Option String :=
  "nLsP".toList.findSome? fun c ↦ (a.value? c).bind fun v ↦
    let option := "-" ++ String.ofList [c] ++ " option"
    match number? v with
    | none => some ("invalid number \"" ++ v.string ++ "\" for " ++ option)
    | some n =>
      if n = 0 && c != 'P' then
        some ("value " ++ v.string ++ " for " ++ option ++ " should be >= 1")
      else none

/-- Starts programs one after the other; gives the status of the whole. -/
def runCalls (runner : Runner) (a : Arguments) : Nat → List (List Chars) → Act Nat
  | status, [] => return status
  | status, call :: rest => do
    let name := Chars.string ((call.head?).getD [])
    if a.has 't' then warn (joinWith [' '] call ++ ['\n'])
    let isThere := (← runner.obstacle? ((call.head?).getD [])).isNone
    match ← outcome (startNamed runner "xargs" "" "" call) with
    | .error (.killed pid signal) =>
      if pid = (← process).pid || pid = Builtin.everyProcess then throw (.killed pid signal)
      else do
        complain "xargs" (name ++ ": terminated by signal " ++ (number signal).string)
        return 125
    | .error flow => throw flow
    | .ok n =>
      if !isThere then return n
      else if n = 255 then do
        complain "xargs" (name ++ ": exited with status 255; aborting")
        return 124
      else runCalls runner a (if n ≠ 0 then 123 else status) rest

/-- Starts a program with words of the input as arguments. -/
def xargs (runner : Runner) : Tool := fun words ↦
  withLeadingOr 1 "xargs" xargsOptions words fun a ↦ do
    let a := match a.value? 'i' with
      | some mark => a.withOption 'I' (if mark.isEmpty then "\x7b\x7d".toList else mark)
      | none => a
    let command := if a.operands.isEmpty then ["echo".toList] else a.operands
    match xargsFault? a with
    | some fault => misused "xargs" fault
    | none =>
      let source := (a.value? 'a').getD ['-']
      match ← whole source with
      | .error fault => do
        complain "xargs" ("Cannot open input file '" ++ source.string ++ "': " ++ fault.reason)
        return 1
      | .ok text =>
        let hasMarks := !(a.has '0' || a.has 'd')
        match if hasMarks then unmatched? (text.length + 1) text else none with
        | some mark => do
          complain "xargs" (unmatchedMessage mark)
          return 1
        | none =>
          let inner : Act Nat := runCalls runner a 0 (xargsCalls a command (xargsItems a text))
          if (a.value? 'a').isSome then inner
          else
            keepingDescriptors do
              connect 0 (← newStream (.device .null))
              inner

end Tool
end Shell
end FirmwareLane
