import FirmwareLane.Shell.Interpreter
import FirmwareLane.Worker.Machine

/-!
# A machine with a shell

A machine whose shell is the interpreter of this library.  Its time is virtual: a command line takes
as long as it sleeps, and one that would not end in time is ended there.
-/

set_option autoImplicit false
namespace FirmwareLane
namespace Shell

/-- How deep commands may stand in each other. -/
def greatestDepth : Nat := 6000

/-- The tree of files that a machine begins with.  Its directories cannot be changed, except the one
for what is passing. -/
def baseTree : Node :=
  let directory (entries : List (String × Node)) : Node := .directory 0o555 entries
  let accounts := "root:x:0:0:root:/root:/bin/sh\nnobody:x:65534:65534:nobody:/nonexistent:/bin/sh\n"
  let programs : List (String × Node) :=
    (programNames.mergeSort fun x y ↦ decide (x ≤ y)).map fun name ↦ (name, .file 0o555 [] 0)
  directory
    [("bin", .link "usr/bin"),
     ("dev", directory
       [("full", .device .full), ("null", .device .null), ("random", .device .zero),
        ("urandom", .device .zero), ("zero", .device .zero)]),
     ("etc", directory [("passwd", .file 0o444 (Text.Utf8.bytes accounts) 0)]),
     ("root", .directory 0 []),
     ("tmp", .directory 0o1777 []),
     ("usr", directory [("bin", directory programs)])]

/-- The state in which a command line starts: the input is empty, and both outputs are kept. -/
def initial (fs : Files) (place : Place) (limit : Nat) : State where
  files := fs
  streams := #[.device .null, .sink [], .sink []]
  now := 0
  limit
  nextPid := 4202
  process :=
    { pid := 4201
      isInner := false
      name := "sh".toList
      invoked := "sh".toList
      command := []
      parameters := []
      bindings := variablesAt { fs with here := place }
        [("HOME".toList, ⟨some "/root".toList, true, false⟩),
         ("PATH".toList, ⟨some usualPath, true, false⟩)]
      functions := []
      aliases := []
      hashed := []
      nextOption := (1, none)
      descriptors := [(0, 0), (1, 1), (2, 2)]
      place
      status := 0
      line := 1
      options := []
      traps := []
      umask := 0o022
      tested := false
      last := true
      loops := 0
      called := false
      calls := 0
      lastJob := none
      answer := none
      locals := none }
  jobs := []
  ended := []
  pending := []
  nextIdentity := fs.root.greatestIdentity + 1
  nameless := []
  refused := none

/-- Runs the commands of a text until the shell ends, and then the jobs that it left behind as long
as their output is waited for. -/
def session (commandLine : Chars) : Act Ending := do
  let runner := runnerAt greatestDepth
  let act : Act Unit := do (← scriptOf ["-c".toList, commandLine]).carryOut runner
  match ← Act.outcome (toEnd runner act) with
  | .error .timeUp => return .timedOut
  | .error .starved => return .timedOut
  | result => do
    modify fun s ↦ { s with limit := max s.limit (s.now + drainGrace) }
    let _ ← Act.outcome (runJobs runner greatestJobs)
    match result with
    | .ok status => return .exited status
    | .error _ => return .killed

/-- The bytes that were written to a stream. -/
def collected (s : State) (n : Nat) : Text.Bytes :=
  match (Act.written n).run s with
  | (.ok text, _) => Chars.toBytes text
  | (.error _, _) => []

/-- When the clock of the machine began, and what it says when a command line starts. -/
structure Clock where
  epoch : Timestamp
  uptime : Nat

/-- The point in time so many milliseconds after another one. -/
def later (t : Timestamp) (milliseconds : Nat) : Timestamp :=
  let n := t.nanoseconds + milliseconds * 1000000
  ⟨t.seconds + (n / 1000000000 : Nat), n % 1000000000⟩

/-- Runs a command line in a directory for at most so many milliseconds. -/
def runCommandLine (clock : Clock) (directory : String) (timeout : Nat) (commandLine : String)
    (fs : Files) : Run × Files :=
  let unstartable (reason : String) : Run × Files :=
    (⟨.unstartable reason, [], [], clock.epoch, 0, clock.uptime⟩, fs)
  if commandLine.toList.contains '\x00' then unstartable "nul byte found in provided data"
  else
    match fs.present true directory with
    | .error fault => unstartable fault.message
    | .ok (place, node) =>
      if !node.isDirectory then unstartable Files.Fault.notDirectory.message
      else if !node.allows .search then unstartable Files.Fault.denied.message
      else
      let (ending, s) := (session (Chars.ofString commandLine)).run (initial fs place timeout)
      let ending := match ending with
        | .ok e => e
        | .error _ => .killed
      let elapsed := match ending with
        | .timedOut => timeout
        | _ => s.now
      (⟨ending, collected s 1, collected s 2, clock.epoch, elapsed, clock.uptime + elapsed⟩,
        { s.files with here := fs.here })

/-- The machine with a clock. -/
def machine (clock : Clock) : Machine where
  run _ := runCommandLine clock
  time index := later clock.epoch index
  nanoseconds n :=
    ((clock.epoch.seconds * 1000000000 + clock.epoch.nanoseconds : Int)).toNat + 1000 * n

end Shell
end FirmwareLane
