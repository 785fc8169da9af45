import FirmwareLane.Shell.Builtin.Signal
import FirmwareLane.Shell.Expansion
import FirmwareLane.Shell.Tool.Naming

/-!
# Shells in shells

How a shell carries out a text, how shells are started that are like the running one or new, and how
the jobs in the background run.
-/

set_option autoImplicit false
namespace FirmwareLane
namespace Shell

open Act

/-! ## Texts -/

/-- Carries out the commands of a text line by line, and tells whether there were any; fuel for one
step per line. -/
def executeLines (runner : Runner) (ran : Bool) : Nat → Input → Act Bool
  | 0, _ => return ran
  | fuel + 1, i => do
    match Input.next { i with aliases := (← process).aliases } with
    | (.ok (some c), rest) => do
      if rest.rest.isEmpty then runner.run c else notLast (runner.run c)
      executeLines runner true fuel rest
    | (.ok none, _) => return ran
    | (.error fault, rest) => do
      alter fun p ↦ { p with line := rest.line }
      fail fault.message

/-- Carries out the commands of a text; tells whether there were any. -/
def execute (runner : Runner) (text : Chars) : Act Bool :=
  executeLines runner false (text.length + 1) (Input.ofText text 1 [])

/-- Carries out the commands of a text, and gives the status of the last one. -/
def executed (runner : Runner) (text : Chars) : Act Nat := do
  if ← execute runner text then status else return 0

/-- Carries out the commands of a text, after which the status is what it was. -/
def executeAside (runner : Runner) (text : Chars) : Act Unit := do
  let before ← status
  let _ ← named [] (execute runner text)
  setStatus before

/-- Receives the signals that shells inside the running one sent to it. -/
def deliver (runner : Runner) : Act Unit := do
  let s ← get
  unless s.pending.isEmpty || s.process.isInner do
    let (mine, others) := s.pending.partition fun (pid, _) ↦ pid == s.process.pid
    set { s with pending := others }
    for (_, signal) in mine do Builtin.receive (executeAside runner) signal

/-! ## Other shells -/

/-- Does what a shell does until it ends, and what is to be done at its end; gives its status. -/
def toEnd (runner : Runner) (act : Act Unit) : Act Nat := do
  let goOn (result : Except Flow Unit) : Act Unit :=
    match result with
    | .error (.killed pid signal) => throw (.killed pid signal)
    | .error .brokenPipe => throw .brokenPipe
    | .error flow => if flow.isFinal then throw flow else return
    | .ok () => return
  goOn (← outcome act)
  match (← process).traps.lookup 0 with
  | some action => do
    let before ← status
    alter fun p ↦ { p with traps := p.traps.filter (·.1 != 0) }
    let result ← outcome (execute runner action)
    match result with
    | .ok _ => setStatus before
    | result => goOn (result.map fun _ ↦ ())
  | none => pure ()
  return (← status) % 256

/-- The status of a program that a signal ended. -/
def signalStatus (signal : Nat) : Nat := 128 + signal

/-- The number of the signal for those who write where nobody reads. -/
def brokenPipeSignal : Nat := 13

/-- Does something in a shell of its own that is like the running one; gives its status. -/
def subshell (runner : Runner) (act : Act Unit) : Act Nat := do
  let result ← outcome <| aside do
    alter fun p ↦
      { p with
        isInner := true
        traps := p.traps.filter fun t ↦ t.2.isEmpty
        last := false }
    toEnd runner act
  match result with
  | .ok status => return status
  | .error .brokenPipe => return signalStatus brokenPipeSignal
  | .error (.killed pid signal) =>
    if pid = Builtin.everyProcess then throw (.killed pid signal)
    else do
      Builtin.warnOfSignal signal
      return signalStatus signal
  | .error flow => throw flow

/-- The output of a command. -/
def output (runner : Runner) (c : Command) : Act Chars := do
  let n ← newStream (.sink [])
  let status ← subshell runner do
    alter fun p ↦ { p with tested := false }
    connect 1 n
    runner.run c
  alter fun p ↦ { p with answer := some status }
  let text ← written n
  setStream n default
  return text.filter (· != '\x00')

/-- Where a shell looks for programs if nothing says so. -/
def usualPath : Chars := "/usr/local/sbin:/usr/local/bin:/usr/sbin:/usr/bin:/sbin:/bin".toList

/-- Variables with one of a name, which keeps its marks if it is there. -/
def withVariable (bindings : List (Chars × Variable)) (name : String) (value : Chars)
    (exported : Bool) : List (Chars × Variable) :=
  if (bindings.lookup name.toList).isSome then
    bindings.map fun (n, v) ↦
      (n, if n = name.toList then ⟨some value, v.exported || exported, v.fixed⟩ else v)
  else bindings ++ [(name.toList, ⟨some value, exported, false⟩)]

/-- The variables that a shell finds when it starts in a directory, given those that it inherits. -/
def variablesAt (fs : Files) (inherited : List (Chars × Variable)) : List (Chars × Variable) :=
  let all := inherited.filter fun (name, v) ↦ v.exported && v.value.isSome && isName name
  let usually (name : String) (value : Chars) (all : List (Chars × Variable)) :=
    if (all.lookup name.toList).isSome then all else withVariable all name value false
  let known := ((all.lookup "PWD".toList).bind (·.value)).getD []
  let isHere := known.head? == some '/' && match fs.present true known.string with
    | .ok (place, _) => place == fs.here
    | .error _ => false
  let all := withVariable all "PWD" (if isHere then known else Tool.pathOf fs.here) true
  let all := withVariable all "IFS" " \t\n".toList false
  let all := withVariable all "OPTIND" ['1'] false
  (usually "PS1" "$ ".toList ∘ usually "PS2" "> ".toList ∘ usually "PS4" "+ ".toList ∘
    usually "PATH" usualPath) all

/-- Does something in a shell that is started with a name and parameters; gives its status.  If the
running shell has nothing else to do, the new one takes its place. -/
def newShell (runner : Runner) (name : Chars) (parameters : List Chars) (last : Bool)
    (act : Act Unit) : Act Nat := do
  let before ← process
  let replaces := before.last && before.traps.isEmpty
  let pid ← if replaces && !before.isInner then pure before.pid else pure (← get).nextPid
  modify fun s ↦ { s with nextPid := s.nextPid + 1 }
  let fs ← files
  let result ← outcome <| aside do
    alter fun p ↦
      { p with
        pid
        isInner := false
        name
        command := []
        parameters
        bindings := variablesAt fs p.bindings
        functions := []
        aliases := []
        hashed := []
        nextOption := (1, none)
        status := 0
        line := 1
        options := []
        traps := p.traps.filter fun t ↦ t.2.isEmpty
        tested := false
        last
        loops := 0
        called := false
        calls := 0
        lastJob := none
        locals := none }
    toEnd runner act
  match result with
  | .ok status => return status
  | .error .brokenPipe => return signalStatus brokenPipeSignal
  | .error flow => throw flow

/-! ## Jobs -/

/-- Carries out a job, and keeps its status and when it ended. -/
def runJob (runner : Runner) (job : Job) : Act Unit := do
  let now := (← get).now
  modify fun s ↦ { s with now := job.start }
  let result ← outcome <| aside do
    modify fun s ↦ { s with process := job.process }
    toEnd runner (runner.run job.command)
  let s ← get
  let ended : Ended := match result with
    | .ok status => ⟨job.pid, status, none, s.now⟩
    | .error (.killed _ signal) => ⟨job.pid, signalStatus signal, some signal, s.now⟩
    | .error .brokenPipe => ⟨job.pid, signalStatus brokenPipeSignal, none, s.now⟩
    | .error _ => ⟨job.pid, 0, none, s.limit⟩
  set { s with now, ended := ended :: s.ended }

/-- Carries out the jobs that have not been run; fuel for one step per job. -/
def runJobs (runner : Runner) : Nat → Act Unit
  | 0 => return
  | fuel + 1 => do
    match (← get).jobs with
    | [] => return
    | job :: rest => do
      modify fun s ↦ { s with jobs := rest }
      runJob runner job
      runJobs runner fuel

/-- The number of jobs that are run at most. -/
def greatestJobs : Nat := 1000

/-- Waits until a point in time. -/
def waitUntil (time : Nat) : Act Unit := do pass (time - (← get).now)

/-- Waits for jobs. -/
def wait (runner : Runner) : Tool := fun words ↦ do
  runner.catchUp
  let s ← get
  match ← Builtin.withoutOptions words with
  | [] => do
    waitUntil (s.ended.foldl (fun n job ↦ max n job.time) 0)
    return 0
  | words => do
    let mut status := 127
    for w in words do
      let ended := (← get).ended
      match (number? w).bind fun n ↦ ended.find? (·.pid == n) with
      | some job =>
        waitUntil job.time
        if let some signal := job.signal then Builtin.warnOfSignal signal
        status := job.status
      | none => status := 127
    return status

/-! ## Pipelines -/

/-- The room that a pipe has at first, and how many times as much it gets if that is not enough. -/
def pipeRoom : Nat := 65536

/-- How many times as much room a pipe gets if it was not enough. -/
def pipeGrowth : Nat := 8

/-- Does two things at once, the second of which reads from a pipe that the first one writes to.
Fuel for one step per size of the pipe. -/
def piped (produce consume : Act Unit) : Nat → Nat → Act Unit
  | 0, _ => throw .timeUp
  | fuel + 1, room => do
    let before ← get
    let n ← newStream (.pipe [] room)
    let result ← outcome (keepingDescriptors do
      connect 1 n
      produce)
    let text ← written n
    let after ← get
    let isFull := text.length ≥ room
    setStream n (.source text (isFull || !result.isOk) 0)
    modify fun s ↦ { s with now := before.now }
    let finish : Act Unit := modify fun s ↦ { s with now := max s.now after.now }
    match ← outcome (keepingDescriptors do
      connect 0 n
      consume) with
    | .ok () =>
      match result with
      | .error .timeUp =>
        let needed := match (← get).streams[n]? with
          | some (.source _ _ needed) => needed
          | _ => 0
        if needed < room then do
          set before
          piped produce consume fuel needed
        else throw .timeUp
      | .error (.killed pid signal) => throw (.killed pid signal)
      | _ => finish
    | .error .starved =>
      if isFull then do
        set before
        piped produce consume fuel (room * pipeGrowth)
      else
        match result with
        | .error flow => throw flow
        | .ok () => throw .starved
    | .error flow => throw flow

/-- Carries out the commands of a pipeline, the first of which reads the input. -/
def pipeline (runner : Runner) : List Command → Act Unit
  | [] => return
  | [c] => do setStatus (← subshell runner (runner.run c))
  | c :: rest =>
    let produce : Act Unit := do let _ ← subshell runner (runner.run c)
    piped produce (pipeline runner rest) 8 pipeRoom

end Shell
end FirmwareLane
