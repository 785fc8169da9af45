import FirmwareLane.Shell.Builtin.Directory
import FirmwareLane.Shell.Builtin.Variable
import FirmwareLane.Shell.Subshell
import FirmwareLane.Shell.Tool.Block
import FirmwareLane.Shell.Tool.Calculation
import FirmwareLane.Shell.Tool.Column
import FirmwareLane.Shell.Tool.Copy
import FirmwareLane.Shell.Tool.Dump
import FirmwareLane.Shell.Tool.Edit
import FirmwareLane.Shell.Tool.Find
import FirmwareLane.Shell.Tool.Identity
import FirmwareLane.Shell.Tool.Modes
import FirmwareLane.Shell.Tool.Order
import FirmwareLane.Shell.Tool.Search
import FirmwareLane.Shell.Tool.Sequence
import FirmwareLane.Shell.Tool.Sum
import FirmwareLane.Shell.Tool.Translate

/-!
# Starting programs

Where a shell finds programs, and how it starts them: tools, shells, and files that hold commands.
-/

set_option autoImplicit false
namespace FirmwareLane
namespace Shell

open Act

/-! ## Finding commands -/

/-- The programs that work on text. -/
def textPrograms : List (String × Tool) :=
  [("cat", Tool.cat), ("tee", Tool.tee), ("tac", Tool.tac), ("rev", Tool.rev), ("head", Tool.head),
   ("tail", Tool.tail), ("wc", Tool.wc), ("sort", Tool.sort), ("uniq", Tool.uniq),
   ("comm", Tool.comm), ("cut", Tool.cut), ("paste", Tool.paste), ("fold", Tool.fold),
   ("nl", Tool.nl), ("tr", Tool.tr), ("od", Tool.od), ("base64", Tool.base64), ("dd", Tool.dd),
   ("truncate", Tool.truncate), ("cmp", Tool.cmp), ("seq", Tool.seq), ("yes", Tool.yes),
   ("grep", Tool.grepAs 'G'), ("egrep", Tool.grepAs 'E'), ("fgrep", Tool.grepAs 'F'),
   ("sed", Tool.sed), ("cksum", Tool.cksum)] ++ Tool.digestPrograms

/-- The programs that work on files. -/
def filePrograms : List (String × Tool) :=
  [("basename", Tool.basename), ("dirname", Tool.dirname), ("readlink", Tool.readlink),
   ("realpath", Tool.realpath), ("mkdir", Tool.mkdir), ("touch", Tool.touch), ("ln", Tool.ln),
   ("rm", Tool.rm), ("rmdir", Tool.rmdir), ("mv", Tool.mv), ("cp", Tool.cp),
   ("chmod", Tool.chmod), ("stat", Tool.stat), ("ls", Tool.ls), ("pwd", Tool.pwd),
   ("sync", Tool.sync)]

/-- The programs that tell something or calculate. -/
def smallPrograms : List (String × Tool) :=
  [("echo", Tool.echo), ("printf", Tool.printf), ("test", Tool.test), ("[", Tool.bracket),
   ("expr", Tool.expr), ("true", Tool.ending 0), ("false", Tool.ending 1), ("id", Tool.id),
   ("whoami", Tool.printing "whoami" "nobody"), ("groups", Tool.groups),
   ("logname", Tool.logname), ("uname", Tool.uname), ("arch", Tool.printing "arch" "x86_64"),
   ("nproc", Tool.nproc), ("tty", Tool.tty), ("printenv", Tool.printenv)]

/-- The programs that start other ones. -/
def startingPrograms : List (String × (Runner → Tool)) :=
  [("sleep", Tool.sleep), ("timeout", Tool.timeout), ("env", Tool.env), ("xargs", Tool.xargs),
   ("find", Tool.find), ("nice", Tool.nice),
   ("nohup", fun runner ↦
      Tool.startBehind runner "nohup" "failed to run command '" "'" ⟨"", "", []⟩),
   ("setsid", fun runner ↦
      Tool.startBehind runner "setsid" "failed to execute " "" ⟨"cfw", "", [("wait", 'w')]⟩),
   ("stdbuf", fun runner ↦
      Tool.startBehind runner "stdbuf" "failed to run command '" "'"
        ⟨"", "ioe", [("input", 'i'), ("output", 'o'), ("error", 'e')]⟩)]

/-- The program of a name. -/
def programNamed? (name : Chars) : Option (Runner → Tool) :=
  match startingPrograms.lookup name.string with
  | some program => some program
  | none => ((textPrograms ++ filePrograms ++ smallPrograms).lookup name.string).map fun tool _ ↦ tool

/-- The names of the shell. -/
def shellNames : List String := ["sh", "dash"]

/-- The directory that the programs are in. -/
def programPlace : Place := ["usr", "bin"]

/-- The name of the program that finds programs. -/
def finderName : String := "which"

/-- Whether there is a program of a name. -/
def isProgram (name : Chars) : Bool :=
  shellNames.contains name.string || name.string = finderName || (programNamed? name).isSome

/-- The names of all programs. -/
def programNames : List String :=
  shellNames ++ [finderName] ++ startingPrograms.map (·.1) ++
    (textPrograms ++ filePrograms ++ smallPrograms).map (·.1)

/-- The name of the program that a place is that of. -/
def programAt? (place : Place) : Option Chars :=
  match place.getLast? with
  | some name =>
    if place.dropLast = programPlace && isProgram name.toList then some name.toList else none
  | none => none

/-- The directories that programs are looked for in. -/
def searchedDirectories : Act (List Chars) := do return pieces ':' (← value "PATH")

/-- Where the program of a name is found, given the directories that it is looked for in. -/
def pathIn? (directories : List Chars) (name : Chars) : Act (Option Chars) := do
  let fs ← files
  let isThere (path : Chars) : Bool :=
    match fs.node path.string with
    | .ok n => n.isFile && n.allows .search
    | .error _ => false
  if name.contains '/' then return if isThere name then some name else none
  else
    return (directories.map fun d ↦ if d.isEmpty then name else d ++ '/' :: name).find? isThere

/-- Where the program of a name is found. -/
def pathOfProgram? (name : Chars) : Act (Option Chars) := do
  pathIn? (← searchedDirectories) name

/-- Why a program cannot be started. -/
def obstacle? (name : Chars) : Act (Option Files.Fault) := do
  if (← pathOfProgram? name).isSome then return none
  else
    let fs ← files
    if name.contains '/' then
      match fs.node name.string with
      | .ok _ => return some .denied
      | .error fault => return some fault
    else
      let candidates := (← searchedDirectories).map fun d ↦
        if d.isEmpty then name else d ++ '/' :: name
      let found (fault : Files.Fault) (path : Chars) : Bool :=
        match fs.node path.string with
        | .ok _ => fault = .denied
        | .error f => fault = f
      return some (if candidates.any (found .denied) then .denied
        else if candidates.any (found .nameTooLong) then .nameTooLong else .notFound)

/-- Shows where programs are found. -/
def which : Tool := fun words ↦ do
  match Arguments.read true ⟨"as", "", []⟩ words with
  | .error fault => do
    match fault with
    | .unknown letter => warn ("Illegal option -".toList ++ [letter, '\n'])
    | _ => warn "Illegal option --\n".toList
    say "Usage: /usr/bin/which [-as] args\n".toList
    return 2
  | .ok a => do
    let directories ← searchedDirectories
    let status ← each a.operands fun name ↦ do
      let places := if name.contains '/' then [directories] else directories.map fun d ↦ [d]
      let found ← places.filterMapM fun ds ↦ pathIn? ds name
      unless a.has 's' do say (unlines (if a.has 'a' then found else found.take 1))
      return !found.isEmpty
    return if a.operands.isEmpty then 1 else status

/-! ## Shells -/

/-- What a shell is started with. -/
structure Invocation where
  options : Chars
  /-- Whether a text of commands is among the words. -/
  hasText : Bool
  words : List Chars

/-- The invocation with one more option, which may also be taken away. -/
def Invocation.withOption (i : Invocation) (on : Bool) (letter : Char) : Act Invocation := do
  if letter = 'c' then return { i with hasText := true }
  else if letter = 'l' then return i
  else if optionLetters.contains letter then
    let others := i.options.filter (· != letter)
    return { i with options := if on then others ++ [letter] else others }
  else fail ("Illegal option -" ++ String.ofList [letter])

/-- The invocation with the options at the front of its words. -/
def Invocation.withOptions (i : Invocation) : List Chars → Act Invocation
  | ['-'] :: rest => return { i with words := rest }
  | ['-', '-'] :: rest => return { i with words := rest }
  | (sign :: letters) :: rest =>
    if sign = '-' ∨ sign = '+' then do
      let i ← letters.foldlM (fun i c ↦ i.withOption (sign == '-') c) i
      i.withOptions rest
    else return { i with words := (sign :: letters) :: rest }
  | words => return { i with words }

/-- What a shell carries out, with its name and its parameters. -/
structure Script where
  text : Chars
  name : Chars
  parameters : List Chars
  options : Chars
  /-- Whether the text was among the words. -/
  isWord : Bool

/-- What words make a shell do: carry out a text, a file or its input. -/
def scriptOf (words : List Chars) : Act Script := do
  let name := (← process).invoked
  alter fun p ↦ { p with name, command := [], line := 0 }
  let i ← Invocation.withOptions ⟨[], false, []⟩ words
  match i.hasText, i.words with
  | true, [] => fail "-c requires an argument"
  | true, text :: words =>
    return ⟨text, words.head?.getD name, words.drop 1, i.options, true⟩
  | false, file :: parameters =>
    if i.options.contains 's' then
      return ⟨← input, name, i.words, i.options, false⟩
    else
      match (← files).read file.string with
      | .ok bytes => return ⟨Chars.ofBytes bytes, file, parameters, i.options, false⟩
      | .error .denied => fail ("cannot open " ++ file.string ++ ": Permission denied")
      | .error .isDirectory => return ⟨[], file, parameters, i.options, false⟩
      | .error _ => fail ("cannot open " ++ file.string ++ ": No such file")
  | false, [] => return ⟨← input, name, [], i.options, false⟩
where
  /-- The whole input. -/
  input : Act Chars := do
    match ← Act.read 0 with
    | .ok text => return text
    | .error _ => return []

/-- Carries out a script in the running shell. -/
def Script.carryOut (x : Script) (runner : Runner) : Act Unit := do
  alter fun p ↦ { p with
    name := x.name
    parameters := x.parameters
    options := x.options }
  let _ ← execute runner x.text

/-- Starts a shell. -/
def startShell (runner : Runner) : Tool := fun words ↦ do
  match ← outcome (aside (scriptOf words)) with
  | .error .failed => return 2
  | .error flow => throw flow
  | .ok script =>
    newShell runner script.name script.parameters script.isWord (script.carryOut runner)

/-- The statuses of programs that could not write all of their output, where they are not one. -/
def writeFailures : List (String × Nat) :=
  [("expr", 3), ("tty", 3), ("ls", 2), ("cmp", 2), ("printenv", 2), ("env", 125), ("nice", 125)]

/-- The status of a program that is carried out aside.  It fails if it could not write all of its
output. -/
def started (name : Chars) (act : Act Nat) : Act Nat := do
  let inOrder (p : Process) : List (Chars × Variable) :=
    p.bindings.mergeSort fun x y ↦ Builtin.aliasRank x.1 ≤ Builtin.aliasRank y.1
  match ← outcome (within (fun p ↦ { p with bindings := inOrder p }) (fun before _ ↦ before) act) with
  | .error .brokenPipe => return signalStatus brokenPipeSignal
  | .error flow => throw flow
  | .ok status =>
    match (← get).refused with
    | none => return status
    | some fault => do
      modify fun s ↦ { s with refused := none }
      complain name.string ("write error: " ++ fault.reason)
      return max status ((writeFailures.lookup name.string).getD 1)

/-- Starts a program of a name that there is. -/
def startProgram (runner : Runner) (name : Chars) : Tool := fun words ↦
  if shellNames.contains name.string then startShell runner words
  else if name.string = finderName then started name (which words)
  else
    match programNamed? name with
    | some program => started name (program runner words)
    | none => return 127

/-- Says that a command cannot be started. -/
def notStarted (name : Chars) (fault : Files.Fault) : Act Nat := do
  let isMissing := fault = .notFound || fault = .notDirectory
  report (name.string ++ ": " ++ if isMissing then "not found" else fault.reason)
  return if fault = .denied && name.contains '/' then 126 else 127

/-- Whether a file can be read as commands: its first line holds only characters of texts. -/
def isScript (text : Chars) : Bool :=
  (text.takeWhile (· != '\n')).all fun c ↦
    (' ' ≤ c && c != '\x7f') || ('\x07' ≤ c && c ≤ '\x0d') || c = '\x1b'

/-- The program that a file asks to be read by, with an argument. -/
def interpreter? (text : Chars) : Option (Chars × List Chars) := do
  let line ← without? "#!".toList (text.takeWhile (· != '\n'))
  match (pieces ' ' line).filter fun w ↦ !w.isEmpty with
  | program :: argument => some (Tool.lastName program, argument)
  | [] => none

/-- Starts the program that the text of a file is, or asks for, at a path. -/
def startText (runner : Runner) (path text : Chars) : Tool := fun words ↦ do
  match interpreter? text with
  | none =>
    if isScript text then newShell runner path words false do let _ ← execute runner text
    else
      report (path.string ++ ": Exec format error")
      return 126
  | some (program, arguments) =>
    let (program, arguments) := match program.string, arguments with
      | "env", p :: rest => (p, rest)
      | _, arguments => (program, arguments)
    if shellNames.contains (Chars.string program) then
      newShell runner path words false do
        alter fun p ↦
          { p with options := arguments.flatten.filter fun c ↦ "aefux".toList.contains c }
        let _ ← execute runner text
    else if isProgram program then startProgram runner program (arguments ++ path :: words)
    else notStarted path .notFound

/-- Starts the program in a file. -/
def startFile (runner : Runner) (path : Chars) : Tool := fun words ↦ do
  match (← files).present true path.string with
  | .ok (place, node) =>
    if !node.isFile || !node.allows .search then notStarted path .denied
    else
      match programAt? place with
      | some program => startProgram runner program words
      | none => startText runner path (Chars.ofBytes node.bytes) words
  | .error fault => notStarted path fault

/-- Starts a program that words name, given the directories that it is looked for in. -/
def startIn (runner : Runner) (directories : List Chars) : Tool := fun words ↦ do
  match words with
  | [] => return 0
  | name :: rest =>
    within (fun p ↦ { p with invoked := name }) (fun before p ↦ { p with invoked := before.invoked }) do
      match name.contains '/', ← pathIn? directories name with
      | true, _ => startFile runner name rest
      | false, some path => startFile runner path rest
      | false, none => notStarted name ((← obstacle? name).getD .notFound)

/-- Starts a program that words name. -/
def start (runner : Runner) : Tool := fun words ↦ do startIn runner (← searchedDirectories) words

end Shell
end FirmwareLane
