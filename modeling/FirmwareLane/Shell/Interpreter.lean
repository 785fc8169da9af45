import FirmwareLane.Shell.Launch
import FirmwareLane.Shell.Redirection

/-!
# Carrying out commands

A shell carries out commands one after the other.  Each step is given a runner for the commands in
it; the runner at a depth is made of the one below, so that every run comes to an end.
-/

set_option autoImplicit false
namespace FirmwareLane
namespace Shell

open Act

/-! ## Texts and programs -/

/-- Carries out the text that words make. -/
def eval (runner : Runner) : Tool := fun words ↦ executed runner (joinWith [' '] words)

/-- The first file of a name in directories. -/
def fileIn? (directories : List Chars) (name : Chars) : Act (Option Chars) := do
  let fs ← files
  return (directories.map fun d ↦ if d.isEmpty then name else d ++ '/' :: name).find? fun path ↦
    fs.isFile (Chars.string path)

/-- Carries out the commands in a file. -/
def source (runner : Runner) : Tool := fun words ↦ do
  match words with
  | [] => return 0
  | name :: _ => do
    match ← if name.contains '/' then pure (some name)
      else fileIn? (← searchedDirectories) name with
    | none => fail (name.string ++ ": not found")
    | some path =>
      match (← files).read path.string with
      | .error fault =>
        let isMissing := fault = .notFound || fault = .notDirectory
        fail ("cannot open " ++ name.string ++ ": " ++
          if isMissing then "No such file" else fault.reason)
      | .ok bytes => do
        let result ← outcome (within (fun p ↦ { p with called := true, command := path })
          (fun before p ↦ { p with called := before.called, line := before.line })
          (executed runner (Chars.ofBytes bytes)))
        match result with
        | .ok status => return status
        | .error .leave => status
        | .error flow => throw flow

/-- Becomes another program, or keeps redirections. -/
def exec (runner : Runner) : Tool := fun words ↦ do
  match words with
  | [] => return 0
  | name :: _ => do
    match ← obstacle? name with
    | some fault => Act.exit (← notStarted name fault)
    | none => do
      alter fun p ↦ { p with traps := p.traps.filter fun t ↦ t.2.isEmpty, last := true }
      match ← outcome (named [] (start runner words)) with
      | .ok status => Act.exit status
      | .error (.killed pid signal) => do
        let own := (← process).pid
        throw (.killed (if pid = Builtin.everyProcess then pid else own) signal)
      | .error flow => throw flow

/-- Starts a program, given the directories that it is looked for in.  A signal that ends it does not
end the shell. -/
def startBeside (runner : Runner) (directories : List Chars) (name : Chars) : Tool := fun words ↦ do
  noteProgram name
  match ← outcome (startIn runner directories (name :: words)) with
  | .ok status => return status
  | .error (.killed pid signal) => do
    if pid = (← process).pid || pid = Builtin.everyProcess then throw (.killed pid signal)
    else
      Builtin.warnOfSignal signal
      return signalStatus signal
  | .error flow => throw flow
where
  /-- Remembers a program that is looked for. -/
  noteProgram (name : Chars) : Act Unit := do
    if !name.contains '/' && (← pathIn? directories name).isSome then
      alter fun p ↦ { p with hashed := name :: p.hashed.filter (· != name) }

/-! ## Commands of the shell -/

/-- Tells how much time was used. -/
def times : Tool := fun _ ↦ do
  say (unlines (List.replicate 2 "0m0.000000s 0m0.000000s".toList))
  return 0

/-- The commands of the shell that can end it. -/
def specialBuiltins : List (String × (Runner → Tool)) :=
  [(":", fun _ _ ↦ return 0), (".", source), ("break", fun _ ↦ Builtin.endLoops false),
   ("continue", fun _ ↦ Builtin.endLoops true), ("eval", eval), ("exec", exec),
   ("exit", fun _ ↦ Builtin.exit),
   ("export", fun _ ↦ Builtin.mark "export" (fun v ↦ { v with exported := true }) (·.exported)),
   ("readonly", fun _ ↦ Builtin.mark "readonly" (fun v ↦ { v with fixed := true }) (·.fixed)),
   ("local", fun _ ↦ Builtin.localize), ("return", fun _ ↦ Builtin.leave),
   ("set", fun _ ↦ Builtin.set), ("shift", fun _ ↦ Builtin.shift), ("times", fun _ ↦ times),
   ("trap", fun _ ↦ Builtin.trap), ("unset", fun _ ↦ Builtin.unset)]

/-- The place of a program in the list of those that were looked for. -/
def programRank (name : Chars) : Nat :=
  (name.foldl (fun n c ↦ n + c.toNat) (16 * ((name.head?).getD '\x00').toNat)) % Nat.pow 2 15 % 31

/-- Looks for programs, or lists those that were looked for. -/
def hash : Tool := fun words ↦ do
  let a ← Builtin.arguments "r" "" words
  if a.has 'r' then
    alter fun p ↦ { p with hashed := [] }
    return 0
  else if a.operands.isEmpty then
    for name in (← process).hashed.reverse.mergeSort fun x y ↦ programRank x ≤ programRank y do
      if let some path ← pathOfProgram? name then say (path ++ ['\n'])
    return 0
  else
    each a.operands fun name ↦ do
      if (← pathOfProgram? name).isSome then
        alter fun p ↦ { p with hashed := name :: p.hashed.filter (· != name) }
        return true
      else
        report (Chars.string name ++ ": not found")
        return false

/-- Tells how much of something may be used. -/
def ulimit : Tool := fun words ↦ do
  let a ← Builtin.arguments "HSatfdscmlpnvwr" "" words
  unless !a.operands.isEmpty do say "unlimited\n".toList
  return 0

/-- The other commands of the shell. -/
def plainBuiltins : List (String × (Runner → Tool)) :=
  [("cd", fun _ ↦ Builtin.cd), ("chdir", fun _ ↦ Builtin.cd), ("pwd", fun _ ↦ Builtin.pwd),
   ("echo", fun _ ↦ Builtin.echo), ("printf", fun _ ↦ Builtin.printf),
   ("test", fun _ ↦ Builtin.test), ("[", fun _ ↦ Builtin.bracket),
   ("read", fun _ ↦ Builtin.read), ("getopts", fun _ ↦ Builtin.getopts),
   ("umask", fun _ ↦ Builtin.umask), ("wait", wait),
   ("kill", fun runner ↦ Builtin.kill (executeAside runner)),
   ("true", fun _ _ ↦ return 0), ("false", fun _ _ ↦ return 1), ("hash", fun _ ↦ hash),
   ("alias", fun _ ↦ Builtin.setAliases), ("unalias", fun _ ↦ Builtin.unsetAliases),
   ("jobs", fun _ _ ↦ return 0), ("fg", fun _ _ ↦ fail "No current job"),
   ("bg", fun _ _ ↦ fail "No current job"), ("ulimit", fun _ ↦ ulimit)]

/-- The commands of the shell that tell about commands. -/
def tellingNames : List String := ["type", "command"]

/-- Tells what a command is. -/
def describe (directories : List Chars) (long : Bool) (name : Chars) : Act Bool := do
  let text := name.string
  let p ← process
  let line (short : Chars) (description : Chars) : Act Bool := do
    say ((if long then name ++ " is ".toList ++ description else short) ++ ['\n'])
    return true
  if Parse.reservedWords.contains text then line name "a shell keyword".toList
  else
    match p.aliases.lookup name with
    | some value =>
      line ("alias ".toList ++ name ++ '=' :: Builtin.quote value) ("an alias for ".toList ++ value)
    | none =>
      if (specialBuiltins.lookup text).isSome then line name "a special shell builtin".toList
      else if (p.functions.lookup name).isSome then line name "a shell function".toList
      else if (plainBuiltins.lookup text).isSome || tellingNames.contains text then
        line name "a shell builtin".toList
      else if name.contains '/' && (← files).isThere text then line name name
      else
        let found ← if name.contains '/' then pure none else pathIn? directories name
        match found with
        | some path => do
          alter fun p ↦ { p with hashed := name :: p.hashed.filter (· != name) }
          let known := if p.hashed.contains name then "a tracked alias for ".toList else []
          line path (known ++ path)
        | none => do
          if long then say (name ++ ": not found\n".toList)
          return false

/-- Tells what commands are. -/
def type : Tool := fun words ↦ do
  let directories ← searchedDirectories
  let mut status := 0
  for name in words do
    unless ← describe directories true name do status := 127
  return status

/-- Tells what a command is, if options ask for it. -/
def command : Tool := fun words ↦ do
  let a ← Builtin.arguments "pvV" "" words
  let directories ← if a.has 'p' then pure (pieces ':' usualPath) else searchedDirectories
  match a.operands with
  | name :: _ =>
    if a.has 'v' || a.has 'V' then
      return if ← describe directories (a.has 'V') name then 0 else 127
    else return 0
  | [] => return 0

/-! ## Words of simple commands -/

/-- What is known of a simple command from its first fields: the name is still to come, or options of
what stands before it; values are assigned by what follows; or nothing else matters. -/
inductive Naming where
  | name (functions : Bool)
  | options
  | assigning
  | done
  deriving DecidableEq

/-- The commands that give variables values or texts to names. -/
def assigningNames : List String := ["alias", "export", "local", "readonly"]

/-- The options that leave the words behind `command` a command. -/
def isPathOption (field : Chars) : Bool :=
  match field with
  | '-' :: c :: rest => (c :: rest).all (· == 'p')
  | _ => false

/-- What is known behind a field more. -/
def Naming.behind (functions : List (Chars × Command)) (x : Naming) (field : Chars) : Naming :=
  match x with
  | .name asks =>
    if asks && (functions.lookup field).isSome then .done
    else if field = "command".toList then .options
    else if assigningNames.contains field.string then .assigning
    else .done
  | .options =>
    if isPathOption field then .options
    else if field = "--".toList then .name false
    else if field.head? = some '-' then .done
    else Naming.behind functions (.name false) field
  | x => x
termination_by match x with
  | .options => 1
  | _ => 0

/-- The fields of words.  What assigns values to variables is not split. -/
def argumentsOf (runner : Runner) : Naming → List Word → Act (List Chars)
  | _, [] => return []
  | x, w :: rest => do
    let found ← match (if x = .assigning then assignment? w else none) with
      | some (name, value) => do
        pure [name ++ '=' :: (← single (output runner) (.assigned true) value)]
      | none => fields (output runner) w
    let functions := (← process).functions
    return found ++ (← argumentsOf runner (found.foldl (Naming.behind functions) x) rest)

/-- A command that words call: whether it may be a function, and whether it is looked for in the usual
directories. -/
structure Called where
  words : List Chars
  functions : Bool
  usual : Bool

/-- The command behind the options of `command`; nothing if they ask for something else. -/
def behindOptions (usual : Bool) : List Chars → Option Called
  | [] => none
  | w :: rest =>
    if w = "--".toList then if rest.isEmpty then none else some ⟨rest, false, usual⟩
    else if isPathOption w then behindOptions true rest
    else if w.head? = some '-' && 1 < w.length then none
    else some ⟨w :: rest, false, usual⟩

/-- The command that is called in the end; fuel for one step per word. -/
def Called.inner (functions : List (Chars × Command)) : Nat → Called → Called
  | 0, x => x
  | fuel + 1, x =>
    match x.words with
    | name :: rest =>
      if x.functions && (functions.lookup name).isSome then x
      else if name = "command".toList then
        match behindOptions x.usual rest with
        | some y => Called.inner functions fuel y
        | none => x
      else x
    | [] => x

/-! ## Simple commands -/

/-- What stands in front of commands that are shown. -/
def tracePrompt (runner : Runner) : Act Chars := do
  let text ← value "PS4"
  match Parse.prompt.run (Input.ofText text 1 []) with
  | (.error fault, _) => do
    report fault.message
    return text
  | (.ok w, _) =>
    match ← outcome (single (output runner) .nowhere w) with
    | .ok shown => return shown
    | .error .failed => return text
    | .error flow => throw flow

/-- Shows the words of a command, if that is asked for, where messages went before its
redirections. -/
def trace (runner : Runner) (descriptors : List (Nat × Nat)) (words : List Chars) : Act Unit := do
  if ← hasOption 'x' then
    let shown ← tracePrompt runner
    within (fun p ↦ { p with descriptors }) (fun before p ↦ { p with descriptors := before.descriptors })
      (warn (shown ++ joinWith [' '] words ++ ['\n']))

/-- Gives variables values, which may be exported; gives the assignments as they are shown. -/
def assignAll (runner : Runner) (exports : Bool) (assignments : List (Chars × Word)) :
    Act (List Chars) :=
  assignments.mapM fun (name, w) ↦ do
    let text ← single (output runner) (.assigned true) w
    assign name text
    if exports then
      alter fun p ↦
        { p with bindings := p.bindings.map fun (n, v) ↦ (n, if n = name then { v with exported := true } else v) }
    return name ++ '=' :: text

/-- Bindings with those of some names as they are in other ones. -/
def restored (names : List Chars) (old bindings : List (Chars × Variable)) :
    List (Chars × Variable) :=
  bindings.filterMap fun (name, v) ↦
    if names.contains name then (old.lookup name).map fun w ↦ (name, w) else some (name, v)

/-- Does something with variables that have other values for it. -/
def withAssignments {α : Type} (runner : Runner) (assignments : List (Chars × Word))
    (act : List Chars → Act α) : Act α :=
  if assignments.isEmpty then act []
  else
    within id
      (fun before p ↦
        { p with bindings := restored (assignments.map (·.1)) before.bindings p.bindings })
      (do act (← assignAll runner true assignments))

/-- How deep functions may call each other. -/
def greatestCalls : Nat := 1000

/-- Bindings with the variables that a function had for itself as they were before. -/
def withoutLocals (locals : List (Chars × Option Variable)) (bindings : List (Chars × Variable)) :
    List (Chars × Variable) :=
  locals.foldl (fun all (name, old) ↦
    match old with
    | some v =>
      if (all.lookup name).isSome then all.map fun (n, w) ↦ (n, if n = name then v else w)
      else all ++ [(name, v)]
    | none => all.filter (·.1 != name)) bindings

/-- Calls a function. -/
def call (runner : Runner) (body : Command) (words : List Chars) : Act Nat := do
  if greatestCalls ≤ (← process).calls then
    fail ("Maximum function recursion depth (" ++ (number greatestCalls).string ++ ") reached")
  let result ← outcome <|
    within
      (fun p ↦
        { p with
          parameters := words
          nextOption := (1, none)
          called := true
          calls := p.calls + 1
          loops := 0
          locals := some [] })
      (fun before p ↦
        { p with
          parameters := before.parameters
          nextOption := before.nextOption
          called := before.called
          calls := before.calls
          loops := before.loops
          locals := before.locals
          bindings := withoutLocals (p.locals.getD []) p.bindings })
      (runner.run body)
  match result with
  | .ok () => status
  | .error .leave => status
  | .error flow => throw flow

/-- Carries out a command of the shell itself, and fails if it could not write all of its output. -/
def own (name : Chars) (act : Act Nat) : Act Nat :=
  notLast <| named name do
    let result ← outcome act
    let refused := (← get).refused
    modify fun s ↦ { s with refused := none }
    match result, refused with
    | .ok status, none => return status
    | .ok status, some _ => do
      report (name.string ++ ": I/O error")
      return status ||| 1
    | .error flow, _ => throw flow

/-- Does something whose failure only makes a status. -/
def unharmed (act : Act Nat) : Act Nat := do
  match ← outcome act with
  | .error .failed => status
  | .error flow => throw flow
  | .ok status => return status

/-- Carries out a command that is not one of those that can end the shell. -/
def plain (runner : Runner) (x : Called) : Act Nat := do
  match x.words with
  | [] => return 0
  | name :: words =>
    let functions := (← process).functions
    match if x.functions then functions.lookup name else none with
    | some body => notLast (call runner body words)
    | none =>
      match plainBuiltins.lookup name.string with
      | some tool => unharmed (own name (tool runner words))
      | none =>
        if name = "type".toList then unharmed (own name (type words))
        else if name = "command".toList then unharmed (own name (command words))
        else
          let directories ← if x.usual then pure (pieces ':' usualPath) else searchedDirectories
          startBeside runner directories name words

/-- Carries out what words call, with variables that have values for it. -/
def carryOut (runner : Runner) (assignments : List (Chars × Word)) (args : List Chars)
    (descriptors : List (Nat × Nat)) (x : Called) : Act Nat := do
  let name := (x.words.head?).getD []
  match specialBuiltins.lookup name.string with
  | none =>
    withAssignments runner assignments fun shown ↦ do
      trace runner descriptors (shown ++ args)
      plain runner x
  | some tool =>
    let act (shown : List Chars) : Act Nat := do
      trace runner descriptors (shown ++ args)
      own name (tool runner (x.words.drop 1))
    if x.functions then do
      let exports := name = "exec".toList && 1 < x.words.length
      act (← assignAll runner exports assignments)
    else unharmed (withAssignments runner assignments act)

/-- Carries out a simple command on a line. -/
def simple (runner : Runner) (line : Nat) (assignments : List (Chars × Word)) (words : List Word)
    (redirects : List Redirect) : Act Unit := do
  alter fun p ↦ { p with line, answer := none }
  let args ← argumentsOf runner (.name true) words
  let p ← process
  let x := Called.inner p.functions args.length ⟨args, true, false⟩
  let name := (x.words.head?).getD []
  let targets ← targetsOf runner redirects
  let act : Act Unit := do
    if ← redirectEach runner targets then
      if args.isEmpty then
        let shown ← assignAll runner false assignments
        trace runner p.descriptors shown
        setStatus ((← process).answer.getD 0)
      else setStatus (← carryOut runner assignments args p.descriptors x)
    else
      setStatus 2
      if x.functions && Parse.specialNames.contains name.string then throw .failed
  if name = "exec".toList && x.words.length = 1 then act
  else if redirects.isEmpty then act
  else keepingDescriptors act

/-! ## Compound commands -/

/-- Ends the shell after a failure that nobody looks at, if that is asked for. -/
def checkFailure : Act Unit := do
  let p ← process
  if p.status ≠ 0 && p.options.contains 'e' && !p.tested then throw .exit

/-- Does a part of a loop; the error tells whether the loop goes on with its next round. -/
def loopPart {α : Type} (act : Act α) : Act (Except Bool α) := do
  let result ← outcome <|
    within (fun p ↦ { p with loops := p.loops + 1 })
      (fun before p ↦ { p with loops := before.loops })
      act
  match result with
  | .ok a => return .ok a
  | .error (.endLoops n goOn) =>
    if 1 < n then throw (.endLoops (n - 1) goOn)
    else
      setStatus 0
      return .error goOn
  | .error flow => throw flow

/-- The number of rounds of a loop after which time is taken to be up. -/
def greatestRounds : Nat := 200000

/-- Repeats a command while a condition holds; the last round had a status. -/
def rounds (condition : Act Bool) (body : Act Unit) : Nat → Nat → Act Unit
  | 0, _ => throw .timeUp
  | fuel + 1, last => do
    match ← loopPart condition with
    | .ok false => setStatus last
    | .ok true =>
      match ← loopPart body with
      | .error false => return
      | _ => rounds condition body fuel (← status)
    | .error true => rounds condition body fuel last
    | .error false => setStatus last

/-- Carries out a command for every text. -/
def forEach (name : Chars) (body : Act Unit) : List Chars → Act Unit
  | [] => return
  | x :: rest => do
    assign name x
    match ← loopPart body with
    | .error false => return
    | _ => forEach name body rest

/-- The command of the first arm with a pattern that matches a text. -/
def chosenArm (runner : Runner) (text : Chars) : List (List Word × Command) → Act (Option Command)
  | [] => return none
  | (patterns, c) :: rest => do
    if ← patterns.anyM fun w ↦ do
        return globMatches (← patternOf (output runner) w) text then
      return some c
    else chosenArm runner text rest

/-- Puts a command into the background. -/
def putInBackground (c : Command) : Act Unit := do
  let n ← newStream (.device .null)
  let s ← get
  let process := { s.process with
    isInner := true
    descriptors := (0, n) :: s.process.descriptors.filter (·.1 != 0)
    traps := s.process.traps.filter fun t ↦ t.2.isEmpty
    last := true }
  let job : Job := ⟨s.nextPid, c, process, s.now⟩
  set { s with
    nextPid := s.nextPid + 1
    jobs := s.jobs ++ [job]
    process := { s.process with lastJob := some s.nextPid, status := 0 } }

/-- Looks for the programs that parts of a pipeline name. -/
def lookForParts (parts : List Command) : Act Unit := do
  for part in parts do
    if let .simple _ _ ([.literal false name] :: _) _ := part then
      let p ← process
      let isOwn := (specialBuiltins.lookup name.string).isSome ||
        (plainBuiltins.lookup name.string).isSome || (p.functions.lookup name).isSome
      if isName name && !isOwn && (← pathOfProgram? name).isSome then
        alter fun p ↦ { p with hashed := name :: p.hashed.filter (· != name) }

/-- Carries out a command, given a runner for the commands in it. -/
def step (runner : Runner) (c : Command) : Act Unit := do
  if ← hasOption 'n' then return
  let finish : Act Unit := do
    deliver runner
    checkFailure
  match c with
  | .nothing => setStatus 0
  | .simple line assignments words redirects => do
    simple runner line assignments words redirects
    finish
  | .redirected line c redirects => do
    alter fun p ↦ { p with line }
    let targets ← targetsOf runner redirects
    keepingDescriptors do
      if ← redirectEach runner targets then notLast (runner.run c)
      else
        setStatus 2
        checkFailure
  | .pipe parts => do
    lookForParts parts
    pipeline runner parts
    finish
  | .negated c => do
    testing (runner.run c)
    setStatus (if (← status) = 0 then 1 else 0)
  | .both a b => do
    testing (runner.run a)
    if (← status) = 0 then runner.run b
  | .either a b => do
    testing (runner.run a)
    if (← status) ≠ 0 then runner.run b
  | .sequence a b => do
    notLast (runner.run a)
    runner.run b
  | .background c => putInBackground c
  | .subshell c => do
    setStatus (← subshell runner (runner.run c))
    finish
  | .conditional condition yes no => do
    testing (runner.run condition)
    if (← status) = 0 then runner.run yes else runner.run no
  | .loop until_ condition body => do
    let holds : Act Bool := do
      testing (runner.run condition)
      return ((← status) == 0) != until_
    rounds holds (notLast (runner.run body)) greatestRounds 0
  | .forEach line name words body => do
    alter fun p ↦ { p with line }
    let texts ← match words with
      | some ws => ws.flatMapM (fields (output runner))
      | none => pure (← process).parameters
    setStatus 0
    forEach name (notLast (runner.run body)) texts
  | .select line w arms => do
    alter fun p ↦ { p with line }
    let text ← single (output runner) .front w
    match ← chosenArm runner text arms with
    | some c => runner.run c
    | none => setStatus 0
  | .define _ name body => do
    alter fun p ↦ { p with functions := (name, body) :: p.functions.filter (·.1 != name) }
    setStatus 0

/-- The runner at a depth.  At no depth the shell is ended. -/
def runnerAt : Nat → Runner
  | 0 =>
    let tooDeep {α : Type} : Act α := do throw (.killed (← process).pid 11)
    ⟨fun _ ↦ tooDeep, fun _ ↦ tooDeep, obstacle?, tooDeep⟩
  | depth + 1 =>
    let below := runnerAt depth
    ⟨step below, start below, obstacle?, runJobs below greatestJobs⟩

end Shell
end FirmwareLane
