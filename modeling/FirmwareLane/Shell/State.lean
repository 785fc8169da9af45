import FirmwareLane.Files.Basic
import FirmwareLane.Shell.Command

/-!
# The state of a shell

A shell changes files, writes to streams that its descriptors lead to, keeps variables, and waits
for time to pass.  Time is virtual: it advances only by what waits for it, and there is a point in
time at which everything ends.

What a shell does is an `Act`: a change of the state that goes on to what comes next, or leaves it
by a `Flow`.

A command that writes to a pipe is carried out before the one that reads from it.  The pipe takes a
number of bytes and is then as if its reader had gone.  A reader that needs more than that leaves by
`Flow.starved`, and both are carried out again with a pipe that takes more.
-/

set_option autoImplicit false
namespace FirmwareLane
namespace Shell

/-- Where an open descriptor leads. -/
inductive Stream where
  /-- Keeps what is written, the last piece first. -/
  | sink (written : List Chars)
  /-- Keeps what is written, the last piece first, as long as there is room for so many bytes. -/
  | pipe (written : List Chars) (room : Nat)
  /-- Holds what is still to be read, behind so many bytes that readers needed; a mark tells whether
  more may come. -/
  | source (rest : Chars) (more : Bool) (needed : Nat)
  | device (d : Device)
  /-- A file of an identity that was at a place, and the number of bytes before the next one to be
  read or written.  Marks tell whether it is written at its end, and whether it is open for reading
  and for writing. -/
  | file (identity : Nat) (place : Place) (offset : Nat) (append readable writable : Bool)

instance : Inhabited Stream := ⟨.device .null⟩

/-- The value of a variable, which may be missing, and how it is marked. -/
structure Variable where
  value : Option Chars
  exported : Bool
  fixed : Bool

/-- The letters of the options that a shell may have. -/
def optionLetters : Chars := "efIimnsxvVECabup".toList

/-- What belongs to one running shell. -/
structure Process where
  /-- The number that the shell knows itself by. -/
  pid : Nat
  /-- Whether this is a shell inside the one of that number. -/
  isInner : Bool
  /-- The name in its messages. -/
  name : Chars
  /-- The word that the last program was started by. -/
  invoked : Chars
  /-- The running command of the shell itself, which messages name too; empty if there is none. -/
  command : Chars
  parameters : List Chars
  bindings : List (Chars × Variable)
  functions : List (Chars × Command)
  /-- The names that stand for other texts. -/
  aliases : List (Chars × Chars)
  /-- The programs that were looked for. -/
  hashed : List Chars
  /-- The number of the next parameter that options are looked for in, and how many characters of
  the one before it are done with if there are options left in it. -/
  nextOption : Nat × Option Nat
  /-- The open descriptors with the numbers of their streams. -/
  descriptors : List (Nat × Nat)
  /-- The directory that relative paths begin at. -/
  place : Place
  /-- The exit status of the last command. -/
  status : Nat
  line : Nat
  /-- The letters of the options that are set. -/
  options : Chars
  /-- What is done at a signal, by its number; an empty text means that the signal is ignored. -/
  traps : List (Nat × Chars)
  umask : Nat
  /-- Whether a failure is looked at by a command around. -/
  tested : Bool
  /-- Whether the shell has nothing to do after the running command, so that a program takes its
  place. -/
  last : Bool
  /-- How many loops are around. -/
  loops : Nat
  /-- Whether a function or a file of commands is around, and how many functions are. -/
  called : Bool
  calls : Nat
  lastJob : Option Nat
  /-- The exit status of the last command whose output was put into a word. -/
  answer : Option Nat
  /-- The variables that the running function has for itself, with what they were before; nothing
  outside functions. -/
  locals : Option (List (Chars × Option Variable))

/-- A command in the background that has not been run yet. -/
structure Job where
  pid : Nat
  command : Command
  process : Process
  start : Nat

/-- A job that has been run, and when it ended. -/
structure Ended where
  pid : Nat
  status : Nat
  /-- The signal that ended it. -/
  signal : Option Nat
  time : Nat

/-- The state of everything that shells can see. -/
structure State where
  files : Files
  streams : Array Stream
  /-- The time in milliseconds, and when everything ends. -/
  now : Nat
  limit : Nat
  nextPid : Nat
  process : Process
  jobs : List Job
  ended : List Ended
  /-- Signals that were sent to a shell by one inside it. -/
  pending : List (Nat × Nat)
  /-- The identity of the next file that is opened. -/
  nextIdentity : Nat
  /-- The bytes of open files that have no name any more. -/
  nameless : List (Nat × Text.Bytes)
  /-- Why the last program could not write its output. -/
  refused : Option Files.Fault

/-- Why a command does not go on to the next one. -/
inductive Flow where
  /-- The shell ends with its status. -/
  | exit
  /-- Something failed, so that a command of the shell ends, or else the shell. -/
  | failed
  /-- A signal ends the shell with a number. -/
  | killed (pid signal : Nat)
  /-- A function ends. -/
  | leave
  /-- So many loops end; the last of them may go on with its next round. -/
  | endLoops (n : Nat) (goOn : Bool)
  /-- Nobody reads what is written. -/
  | brokenPipe
  /-- What is to be read has not been written yet. -/
  | starved
  /-- Time is up. -/
  | timeUp
  deriving DecidableEq, Repr

/-- Whether nothing that is around a command goes on. -/
def Flow.isFinal (flow : Flow) : Bool := flow = .starved || flow = .timeUp

/-- What a shell does. -/
abbrev Act (α : Type) := ExceptT Flow (StateM State) α

/-- What interprets commands: `run` carries out a command, `start` starts a program with its
arguments and gives its status, `obstacle?` says why a program cannot be started, and `catchUp` lets
the jobs in the background run. -/
structure Runner where
  run : Command → Act Unit
  start : List Chars → Act Nat
  obstacle? : Chars → Act (Option Files.Fault)
  catchUp : Act Unit

namespace Act

/-! ## The process -/

/-- The running shell. -/
def process : Act Process := do return (← get).process

/-- Changes the running shell. -/
def alter (change : Process → Process) : Act Unit :=
  modify fun s ↦ { s with process := change s.process }

/-- The exit status of the last command. -/
def status : Act Nat := do return (← process).status

/-- Sets the exit status. -/
def setStatus (n : Nat) : Act Unit := alter fun p ↦ { p with status := n }

/-- The files as the running shell sees them. -/
def files : Act Files := do
  let s ← get
  return { s.files with here := s.process.place }

/-- Ends the running shell with a status. -/
def exit {α : Type} (n : Nat) : Act α := do
  setStatus n
  throw .exit

/-! ## Time -/

/-- Lets time pass. -/
def pass (milliseconds : Nat) : Act Unit := do
  let s ← get
  if s.now + milliseconds < s.limit then set { s with now := s.now + milliseconds }
  else throw .timeUp

/-! ## Streams -/

/-- Opens a stream, and gives its number. -/
def newStream (x : Stream) : Act Nat := do
  let s ← get
  set { s with streams := s.streams.push x }
  return s.streams.size

/-- The stream that a descriptor leads to, with its number. -/
def stream? (descriptor : Nat) : Act (Option (Nat × Stream)) := do
  let s ← get
  return (s.process.descriptors.lookup descriptor).map fun n ↦ (n, (s.streams[n]?).getD default)

/-- Puts another stream under a number. -/
def setStream (n : Nat) (x : Stream) : Act Unit :=
  modify fun s ↦ { s with streams := s.streams.setIfInBounds n x }

/-- The bytes of a file with some of them replaced from an offset on. -/
def splice (old : Text.Bytes) (offset : Nat) (new : Text.Bytes) : Text.Bytes :=
  old.take offset ++ List.replicate (offset - old.length) 0 ++ new ++ old.drop (offset + new.length)

/-- The bytes of the file of an identity that was at a place. -/
def bytesOf (s : State) (identity : Nat) (place : Place) : Text.Bytes :=
  match s.files.root.at? place with
  | some (.file _ bytes i) => if i = identity then bytes else elsewhere
  | _ => elsewhere
where
  /-- The bytes of the file under another name, or without one. -/
  elsewhere : Text.Bytes :=
    match s.files.root.withIdentity identity with
    | node :: _ => node.bytes
    | [] => (s.nameless.lookup identity).getD []

/-- The state in which the file of an identity that was at a place has other bytes. -/
def withBytes (s : State) (identity : Nat) (place : Place) (bytes : Text.Bytes) : State :=
  if (s.nameless.lookup identity).isSome then
    { s with nameless := s.nameless.map fun (i, old) ↦ (i, if i = identity then bytes else old) }
  else
    let change (n : Node) : Node := .file n.mode bytes identity
    let isThere := ((s.files.root.at? place).map Node.identity) == some identity
    let root := if isThere then s.files.root.alterFile place change
      else s.files.root.alterIdentity identity change
    { s with files := { s.files with root } }

/-- Writes to a descriptor; the error tells why that cannot be done. -/
def write (descriptor : Nat) (text : Chars) : Act (Except Files.Fault Unit) := do
  match ← stream? descriptor with
  | some (n, .sink written) => do
    setStream n (.sink (text :: written))
    return .ok ()
  | some (n, .pipe written room) =>
    let length := text.length
    if length ≤ room then
      setStream n (.pipe (text :: written) (room - length))
      return .ok ()
    else
      setStream n (.pipe (text.take room :: written) 0)
      if (← process).traps.lookup 13 = some [] then return .error .brokenPipe
      else throw .brokenPipe
  | some (_, .device .full) => return if text.isEmpty then .ok () else .error .noSpace
  | some (_, .device _) => return .ok ()
  | some (n, .file identity place offset append readable true) => do
    let s ← get
    let old := bytesOf s identity place
    let new := Chars.toBytes text
    let offset := if append then old.length else offset
    set (withBytes s identity place (splice old offset new))
    setStream n (.file identity place (offset + new.length) append readable true)
    return .ok ()
  | _ => return .error .badDescriptor

/-- Writes to the output. -/
def say (text : Chars) : Act Unit := do
  if let .error fault ← write 1 text then modify fun s ↦ { s with refused := some fault }

/-- Writes to the error output. -/
def warn (text : Chars) : Act Unit := do let _ ← write 2 text

/-- The word by which a program of a name was started. -/
def invocation (program : String) : Act Chars := do
  let word := (← process).invoked
  return if ('/' :: program.toList).isSuffixOf word then word else program.toList

/-- Writes a line to the error output that begins with the word for a program. -/
def complain (program : String) (text : String) : Act Unit := do
  warn ((← invocation program) ++ Chars.ofString (": " ++ text ++ "\n"))

/-- Writes a message of the shell to the error output. -/
def report (text : String) : Act Unit := do
  let p ← process
  let command := if p.command.isEmpty then [] else p.command ++ ": ".toList
  warn (p.name ++ ": ".toList ++ number p.line ++ ": ".toList ++ command ++
    Chars.ofString text ++ ['\n'])

/-- Fails with a message. -/
def fail {α : Type} (text : String) : Act α := do
  report text
  setStatus 2
  throw .failed

/-- How many characters of a device that never ends are there for a reader who needs all. -/
def endless : Nat := Nat.pow 2 18

/-- What a descriptor holds for a reader who needs at most so many characters of it, or all, without
reading it; and whether there may be more of it than that. -/
def ahead (descriptor : Nat) (most : Option Nat) : Act (Except Files.Fault (Chars × Bool)) := do
  match ← stream? descriptor with
  | some (_, .source rest more _) => return .ok (rest, more)
  | some (_, .device .null) => return .ok ([], false)
  | some (_, .device _) => return .ok (List.replicate (most.getD endless) '\x00', true)
  | some (_, .file identity place offset _ true _) => do
    let s ← get
    if ((s.files.root.at? place).map Node.isDirectory) == some true then return .error .isDirectory
    else return .ok (Chars.ofBytes ((bytesOf s identity place).drop offset), false)
  | _ => return .error .badDescriptor

/-- Passes over characters of a descriptor, of which so many were needed. -/
def skip (descriptor n needed : Nat) : Act Unit := do
  match ← stream? descriptor with
  | some (k, .source rest more before) =>
    setStream k (.source (rest.drop n) more (before + min n needed))
  | some (k, .file identity place offset append readable writable) =>
    setStream k (.file identity place (offset + n) append readable writable)
  | _ => return

/-- Reads all that a descriptor holds, and tells whether more may come. -/
def readOn (descriptor : Nat) : Act (Except Files.Fault (Chars × Bool)) := do
  match ← ahead descriptor none with
  | .ok (text, more) => do
    skip descriptor text.length text.length
    return .ok (text, more)
  | .error fault => return .error fault

/-- Reads all that a descriptor holds. -/
def read (descriptor : Nat) : Act (Except Files.Fault Chars) := do
  match ← readOn descriptor with
  | .ok (text, more) => if more then throw .starved else return .ok text
  | .error fault => return .error fault

/-- Whether a descriptor leads to a file, so that a reader can go back in it. -/
def isFile (descriptor : Nat) : Act Bool := do
  match ← stream? descriptor with
  | some (_, .file ..) => return true
  | _ => return false

/-- Reads the beginning of what a descriptor holds, which a function tells the length of, given
whether all is there and what is there.  If the function cannot tell, more is waited for.  Whoever
reads in blocks leaves what is behind of a file, and of anything else only what is behind the
block. -/
def readFront (descriptor : Nat) (most : Option Nat) (block : Nat)
    (front : Bool → Chars → Option Nat) : Act (Except Files.Fault Chars) := do
  match ← ahead descriptor most with
  | .error fault => return .error fault
  | .ok (text, more) =>
    match front (!more) text with
    | none => if more then throw .starved else return .ok text
    | some n => do
      let behind := min text.length ((n + block - 1) / block * block)
      skip descriptor (if ← isFile descriptor then n else behind) n
      return .ok (text.take n)

/-- What was written to a stream that keeps it. -/
def written (n : Nat) : Act Chars := do
  match (← get).streams[n]? with
  | some (.sink pieces) => return pieces.foldl (fun text piece ↦ piece ++ text) []
  | some (.pipe pieces _) => return pieces.foldl (fun text piece ↦ piece ++ text) []
  | _ => return []

/-- Makes a descriptor lead to a stream. -/
def connect (descriptor n : Nat) : Act Unit :=
  alter fun p ↦
    { p with descriptors := (descriptor, n) :: p.descriptors.filter (·.1 != descriptor) }

/-- Closes a descriptor. -/
def close (descriptor : Nat) : Act Unit :=
  alter fun p ↦ { p with descriptors := p.descriptors.filter (·.1 != descriptor) }

/-! ## Files -/

/-- The identities and places of the open files of the running shell. -/
def openFiles (s : State) : List (Nat × Place) :=
  s.process.descriptors.filterMap fun (_, n) ↦
    match s.streams[n]? with
    | some (.file identity place ..) => some (identity, place)
    | _ => none

/-- Changes the tree of files.  The bytes of open files that lose their last name are kept. -/
def reshape (change : Node → Node) : Act Unit :=
  modify fun s ↦
    let root := change s.files.root
    let lost := (openFiles s).filter fun (identity, _) ↦
      (root.withIdentity identity).isEmpty && (s.nameless.lookup identity).isNone
    { s with
      files := { s.files with root }
      nameless := lost.map (fun (identity, place) ↦ (identity, bytesOf s identity place)) ++
        s.nameless }

/-- Opens the file at a place, which gets an identity unless it has one. -/
def openFile (place : Place) (offset : Nat) (append readable writable : Bool) : Act Nat := do
  let s ← get
  let old := ((s.files.root.at? place).map Node.identity).getD 0
  let identity := if old = 0 then s.nextIdentity else old
  if old = 0 then
    let root := s.files.root.alter (Option.map fun n ↦
      match n with
      | .file mode bytes _ => .file mode bytes identity
      | n => n) place
    set { s with files := { s.files with root }, nextIdentity := identity + 1 }
  newStream (.file identity place offset append readable writable)

/-- Does something to the files as the running shell sees them. -/
def withFiles {α : Type} (action : Files.Action Files.Fault α) : Act (Except Files.Fault α) := do
  let (result, after) := Action.perform action (← files)
  reshape fun _ ↦ after.root
  return result

/-! ## Variables -/

/-- The variable of a name. -/
def variableNamed? (name : Chars) : Act (Option Variable) := do
  return (← process).bindings.lookup name

/-- The value of a variable that has one. -/
def value? (name : Chars) : Act (Option Chars) := do
  return (← variableNamed? name).bind (·.value)

/-- The value of a variable, or nothing. -/
def value (name : String) : Act Chars := do return (← value? name.toList).getD []

/-- Puts a variable in the place of another one of its name, or behind all others. -/
def putVariable (name : Chars) (v : Variable) : Act Unit :=
  alter fun p ↦
    if (p.bindings.lookup name).isSome then
      { p with
        bindings := p.bindings.map fun (n, old) ↦ if n = name then (n, v) else (n, old) }
    else { p with bindings := p.bindings ++ [(name, v)] }

/-- The variable that tells which parameter options are looked for in next. -/
def optionIndex : Chars := "OPTIND".toList

/-- The variable that tells where programs are looked for. -/
def pathName : Chars := "PATH".toList

/-- Forgets where programs were found if a variable is the one that tells where they are. -/
def forgetPrograms (name : Chars) : Act Unit := do
  if name = pathName then alter fun p ↦ { p with hashed := [] }

/-- Gives a variable a value. -/
def assign (name value : Chars) : Act Unit := do
  let exported := (← process).options.contains 'a'
  match ← variableNamed? name with
  | some v =>
    if v.fixed then fail (name.string ++ ": is read only")
    else putVariable name ⟨some value, v.exported || exported, false⟩
  | none => putVariable name ⟨some value, exported, false⟩
  forgetPrograms name
  if name = optionIndex then
    match number? value with
    | some n => alter fun p ↦ { p with nextOption := (max n 1, none) }
    | none => fail ("Illegal number: " ++ value.string)

/-- Forgets a variable. -/
def unset (name : Chars) : Act Unit := do
  match ← variableNamed? name with
  | some v =>
    if v.fixed then fail (name.string ++ ": is read only")
    else
      alter fun p ↦ { p with bindings := p.bindings.filter (·.1 != name) }
      forgetPrograms name
  | none => return

/-- Whether an option is set. -/
def hasOption (letter : Char) : Act Bool := do return (← process).options.contains letter

/-! ## Doing things aside -/

/-- Does something in a running shell that is changed for it, and afterwards makes of the shell
before and the shell then what it goes on as, also if the act is left. -/
def within {α : Type} (enter : Process → Process) (leave : Process → Process → Process)
    (act : Act α) : Act α :=
  ExceptT.mk fun s ↦
    let (result, after) := act.run { s with process := enter s.process }
    (result, { after with process := leave s.process after.process })

/-- Does something and afterwards makes the running shell what it was. -/
def aside {α : Type} (act : Act α) : Act α := within id (fun before _ ↦ before) act

/-- Does something as a command of the shell that messages name. -/
def named {α : Type} (command : Chars) (act : Act α) : Act α :=
  within (fun p ↦ { p with command }) (fun before p ↦ { p with command := before.command }) act

/-- Does something whose failure is looked at by a command around. -/
def testing {α : Type} (act : Act α) : Act α :=
  within (fun p ↦ { p with tested := true, last := false })
    (fun before p ↦ { p with tested := before.tested, last := before.last }) act

/-- Does something after which the shell goes on. -/
def notLast {α : Type} (act : Act α) : Act α :=
  within (fun p ↦ { p with last := false }) (fun before p ↦ { p with last := before.last }) act

/-- Does something and afterwards makes the descriptors what they were. -/
def keepingDescriptors {α : Type} (act : Act α) : Act α :=
  within id (fun before p ↦ { p with descriptors := before.descriptors }) act

/-- The result of an act, or why it was left. -/
def outcome {α : Type} (act : Act α) : Act (Except Flow α) :=
  ExceptT.mk fun s ↦
    let (result, after) := act.run s
    (.ok result, after)

end Act
end Shell
end FirmwareLane
