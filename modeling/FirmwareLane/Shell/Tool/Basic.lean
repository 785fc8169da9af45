import FirmwareLane.Shell.Quotation
import FirmwareLane.Shell.State

/-!
# Tools

A tool is a program that a shell starts: it has arguments, reads its input, writes its outputs,
changes files, and ends with a status.

A tool that reads a stream works on what is there of it.  Where more may come, it works on the whole
lines that are there and then waits for the rest, by `Flow.starved`.
-/

set_option autoImplicit false
namespace FirmwareLane
namespace Shell

/-- A program, given its arguments. -/
abbrev Tool := List Chars → Act Nat

/-- The arguments of a tool: options with their values, and what the tool works on. -/
structure Arguments where
  options : List (Char × Chars)
  operands : List Chars

/-- The options that a tool knows: letters, letters with values, and long names for letters.  A letter
before a question mark takes what follows it in its word, if anything does, as a value.  Words hold no
Greek letters, so these are the letters of options that only have a long name. -/
structure Options where
  letters : String
  valued : String
  long : List (String × Char)

/-- What is wrong with an option. -/
inductive OptionFault where
  | unknown (letter : Char)
  | unknownLong (name : Chars)
  | ambiguous (name : Chars) (candidates : List String)
  | withoutValue (letter : Char)
  | withoutLongValue (name : String)
  /-- There is a value for a name that takes none. -/
  | withValue (name : String)
  deriving DecidableEq, Repr

/-- The wording of a fault. -/
def OptionFault.message : OptionFault → String
  | .unknown letter => "invalid option -- '" ++ String.ofList [letter] ++ "'"
  | .unknownLong name => "unrecognized option '--" ++ name.string ++ "'"
  | .ambiguous name candidates =>
    "option '--" ++ name.string ++ "' is ambiguous; possibilities:" ++
      String.join (candidates.map fun c ↦ " '--" ++ c ++ "'")
  | .withoutValue letter => "option requires an argument -- '" ++ String.ofList [letter] ++ "'"
  | .withoutLongValue name => "option '--" ++ name ++ "' requires an argument"
  | .withValue name => "option '--" ++ name ++ "' doesn't allow an argument"

namespace Options

/-- Whether an option has to have a value. -/
def needsValue (known : Options) (letter : Char) : Bool := known.valued.toList.contains letter

/-- Whether there is an option that need not have a value. -/
def hasLetter (known : Options) (letter : Char) : Bool :=
  letter != '?' && known.letters.toList.contains letter

/-- Whether an option may have a value. -/
def mayHaveValue (known : Options) (letter : Char) : Bool :=
  known.needsValue letter ||
    (known.letters.toList.dropWhile (· != letter)).take 2 == [letter, '?']

end Options

namespace Arguments

/-- Whether an option is given. -/
def has (a : Arguments) (letter : Char) : Bool := a.options.any (·.1 == letter)

/-- The last value that is given for an option. -/
def value? (a : Arguments) (letter : Char) : Option Chars :=
  (a.options.reverse.find? (·.1 == letter)).map (·.2)

/-- All values that are given for an option. -/
def values (a : Arguments) (letter : Char) : List Chars :=
  (a.options.filter (·.1 == letter)).map (·.2)

/-- The last option of some that is given. -/
def last? (a : Arguments) (letters : String) : Option Char :=
  (a.options.reverse.find? fun o ↦ letters.toList.contains o.1).map (·.1)

/-- The arguments with an option more. -/
def withOption (a : Arguments) (letter : Char) (value : Chars) : Arguments :=
  { a with options := a.options ++ [(letter, value)] }

/-- The options in a group of letters, the words behind it, and what was read before; fuel for one
step per letter. -/
def readLetters (known : Options) : Nat → Arguments → Chars → List Chars →
    Except OptionFault (Arguments × List Chars)
  | 0, a, _, rest => .ok (a, rest)
  | _, a, [], rest => .ok (a, rest)
  | fuel + 1, a, c :: letters, rest =>
    if known.needsValue c then
      match letters, rest with
      | [], v :: rest => .ok (a.withOption c v, rest)
      | [], [] => .error (.withoutValue c)
      | letters, rest => .ok (a.withOption c letters, rest)
    else if known.hasLetter c then
      if known.mayHaveValue c then .ok (a.withOption c letters, rest)
      else readLetters known fuel (a.withOption c []) letters rest
    else .error (.unknown c)

/-- The long name that a text stands for, which may be the beginning of just one. -/
def longName (known : Options) (key : Chars) : Except OptionFault (String × Char) :=
  match known.long.find? (·.1.toList == key) with
  | some found => .ok found
  | none =>
    match known.long.filter fun (name, _) ↦ key.isPrefixOf name.toList with
    | [] => .error (.unknownLong key)
    | found :: more =>
      if more.all (·.2 == found.2) then .ok found
      else .error (.ambiguous key ((found :: more).map (·.1)))

/-- The arguments with the option that a long name stands for, and the words behind it. -/
def readLong (known : Options) (a : Arguments) (name : Chars) (rest : List Chars) :
    Except OptionFault (Arguments × List Chars) := do
  let key := name.takeWhile (· != '=')
  let (found, letter) ← longName known key
  match name.drop key.length, rest with
  | _ :: value, rest =>
    if known.mayHaveValue letter then return (a.withOption letter value, rest)
    else throw (.withValue found)
  | [], value :: rest =>
    if known.needsValue letter then return (a.withOption letter value, rest)
    else return (a.withOption letter [], value :: rest)
  | [], [] =>
    if known.needsValue letter then throw (.withoutLongValue found)
    else return (a.withOption letter [], [])

/-- The arguments that words are, behind what was read before; fuel for one step per word.  Options
may have to stand before everything else. -/
def readOnto (leading : Bool) (known : Options) :
    Nat → Arguments → List Chars → Except OptionFault Arguments
  | 0, a, _ => .ok a
  | _, a, [] => .ok a
  | fuel + 1, a, w :: rest =>
    match w with
    | ['-', '-'] => .ok { a with operands := a.operands ++ rest }
    | '-' :: '-' :: name => do
      let (a, rest) ← readLong known a name rest
      readOnto leading known fuel a rest
    | '-' :: c :: letters => do
      let (a, rest) ← readLetters known (letters.length + 2) a (c :: letters) rest
      readOnto leading known fuel a rest
    | w =>
      if leading then .ok { a with operands := a.operands ++ w :: rest }
      else readOnto leading known fuel { a with operands := a.operands ++ [w] } rest

/-- The arguments that words are. -/
def read (leading : Bool) (known : Options) (words : List Chars) : Except OptionFault Arguments :=
  readOnto leading known (words.length + 1) ⟨[], []⟩ words

end Arguments

namespace Act

/-- Complains about the way in which a program is used, and fails with a status. -/
def misusedWith (status : Nat) (program text : String) : Act Nat := do
  complain program text
  warn ("Try '".toList ++ (← invocation program) ++ " --help' for more information.\n".toList)
  return status

/-- Complains about the way in which a program is used. -/
def misused (program text : String) : Act Nat := misusedWith 1 program text

/-- Goes on with the arguments that words are, or complains and fails with a status. -/
def withArgumentsOr (status : Nat) (program : String) (known : Options) (words : List Chars)
    (go : Arguments → Act Nat) : Act Nat := do
  match Arguments.read false known words with
  | .ok a => go a
  | .error fault => misusedWith status program fault.message

/-- Goes on with the arguments that words are, options before everything else, or complains and fails
with a status. -/
def withLeadingOr (status : Nat) (program : String) (known : Options) (words : List Chars)
    (go : Arguments → Act Nat) : Act Nat := do
  match Arguments.read true known words with
  | .ok a => go a
  | .error fault => misusedWith status program fault.message

/-- Goes on with the arguments that words are, or complains. -/
def withArguments (program : String) (known : Options) (words : List Chars)
    (go : Arguments → Act Nat) : Act Nat := withArgumentsOr 1 program known words go

/-- The first of the words that mean the same as a value, of which there are several groups, or complains.
The value may be the beginning of words of one group. -/
def choose (program option : String) (groups : List (List String)) (value : Chars) :
    Act (Option String) := do
  let isIn (group : List String) : Bool := group.any fun w ↦ w.toList == value
  let begins (group : List String) : Bool := group.any fun w ↦ value.isPrefixOf w.toList
  match groups.find? isIn, groups.filter begins with
  | some group, _ => return group.head?
  | none, [group] => return group.head?
  | none, found => do
    let shown := groups.map fun group ↦
      "\n  - " ++ ", ".intercalate (group.map fun w ↦ "'" ++ w ++ "'")
    let _ ← misused program
      ((if found.isEmpty then "invalid" else "ambiguous") ++ " argument " ++ value.marked ++
        " for '" ++ option ++ "'\nValid arguments are:" ++ String.join shown)
    return none

/-- Does something for every operand, and fails if one of them fails. -/
def each (operands : List Chars) (act : Chars → Act Bool) : Act Nat := do
  let mut status := 0
  for x in operands do
    unless ← act x do status := 1
  return status

/-- The descriptors that have paths. -/
def descriptorPaths : List (String × Nat) :=
  [("/dev/stdin", 0), ("/dev/stdout", 1), ("/dev/stderr", 2), ("/dev/fd/0", 0), ("/dev/fd/1", 1),
   ("/dev/fd/2", 2)]

/-- The descriptor of the input, if a name stands for it. -/
def inputNamed? (name : Chars) : Option Nat :=
  if name = ['-'] then some 0
  else if name = "/dev/stdin".toList ∨ name = "/dev/fd/0".toList then some 0 else none

/-- Opens a file to be read, and gives the number of a stream. -/
def openInput (path : Chars) : Act (Except Files.Fault Nat) := do
  match (← files).present true path.string with
  | .error fault => return .error fault
  | .ok (_, .device d) => return .ok (← newStream (.device d))
  | .ok (_, node) =>
    if !node.allows .read then return .error .denied
    else if node.isDirectory then return .error .isDirectory
    else return .ok (← newStream (.source (Chars.ofBytes node.bytes) false 0))

/-- Does something with the descriptor of a file, or of the input if the name stands for it; or tells
why it cannot be read. -/
def reading {α : Type} (name : Chars) (act : Nat → Act (Except Files.Fault α)) :
    Act (Except Files.Fault α) := do
  match inputNamed? name with
  | some descriptor => act descriptor
  | none =>
    match ← openInput name with
    | .error fault => return .error fault
    | .ok n =>
      keepingDescriptors do
        connect fileDescriptor n
        act fileDescriptor
where
  /-- A descriptor that a shell does not use. -/
  fileDescriptor : Nat := 1000

/-- The text of a file, or of the input if the name stands for it, and whether more may come; or why
it cannot be read. -/
def contents (name : Chars) : Act (Except Files.Fault (Chars × Bool)) := reading name readOn

/-- The whole text of a file, or of the input if the name stands for it. -/
def whole (name : Chars) : Act (Except Files.Fault Chars) := reading name Act.read

/-- Complains about a file that cannot be used. -/
def complainOf (program : String) (name : Chars) (fault : Files.Fault) : Act Unit :=
  complain program (name.shown ++ ": " ++ fault.reason)

/-- Asks a question if that is wanted, and tells whether a line of the input that begins with yes
answers it. -/
def confirm (wanted : Bool) (program question : String) : Act Bool := do
  unless wanted do return true
  warn ((← invocation program) ++ Chars.ofString (": " ++ question ++ "? "))
  let line (isAll : Bool) (text : Chars) : Option Nat :=
    let n := (text.takeWhile (· != '\n')).length
    if n < text.length then some (n + 1) else if isAll then some n else none
  match ← readFront 0 none 1 line with
  | .ok answer => return answer.head? == some 'y' || answer.head? == some 'Y'
  | .error _ => return false

/-- The names of texts: operands, or the input if there is none. -/
def inputNames (operands : List Chars) : List Chars :=
  if operands.isEmpty then [['-']] else operands

/-- A text up to the end of its last whole line. -/
def wholeLines (text : Chars) : Chars := (text.reverse.dropWhile (· != '\n')).reverse

/-- Does something with what is there of the text of every operand, or of the input if there is
none. -/
def eachStream (program : String) (operands : List Chars) (act : Chars → Chars → Act Unit) :
    Act Nat := do
  each (inputNames operands) fun name ↦ do
    match ← contents name with
    | .ok (text, more) => do
      act name (if more then wholeLines text else text)
      if more then throw .starved
      return true
    | .error fault => do
      complainOf program name fault
      return false

/-- Does something with the whole text of every operand, or of the input if there is none. -/
def eachText (program : String) (operands : List Chars) (act : Chars → Chars → Act Unit) :
    Act Nat := do
  each (inputNames operands) fun name ↦ do
    match ← whole name with
    | .ok text => do
      act name text
      return true
    | .error fault => do
      complainOf program name fault
      return false

/-- What is there of the texts of the operands, or of the input, one after the other, with whether
more may come and the status. -/
def togetherOn (program : String) (operands : List Chars) : Act (Chars × Bool × Nat) := do
  let mut texts : List Chars := []
  let mut status := 0
  let mut more := false
  for name in inputNames operands do
    unless more do
      match ← contents name with
      | .ok (text, goesOn) =>
        texts := (if goesOn then wholeLines text else text) :: texts
        more := goesOn
      | .error fault =>
        complainOf program name fault
        status := 1
  return (texts.foldl (fun all text ↦ text ++ all) [], more, status)

/-- The whole texts of the operands, or the input, one after the other, with the status. -/
def together (program : String) (operands : List Chars) : Act (Chars × Nat) := do
  let (text, more, status) ← togetherOn program operands
  if more then throw .starved else return (text, status)

/-- Fails for what is still to be read, or ends with a status. -/
def endWith (more : Bool) (status : Nat) : Act Nat := if more then throw .starved else return status

/-- Whether a name leads to the file that the output goes to. -/
def isOutput (name : Chars) : Act Bool := do
  match ← stream? 1 with
  | some (_, .file identity ..) =>
    match (← files).node name.string with
    | .ok (.file _ _ i) => return i = identity && i != 0
    | _ => return false
  | _ => return false

/-- Makes the file that a path leads to hold a text, or writes the text to a descriptor that the path
stands for. -/
def writeFile (path : Chars) (text : Chars) : Act (Except Files.Fault Unit) := do
  match descriptorPaths.lookup path.string with
  | some descriptor => write descriptor text
  | none =>
    match (← files).node path.string with
    | .ok (.device .full) => return if text.isEmpty then .ok () else .error .noSpace
    | .error .notFound => do
      let umask := (← process).umask
      let result ← withFiles (Files.write path.string (Chars.toBytes text))
      if let .ok (place, node) := (← files).present true path.string then
        reshape fun root ↦ root.put place (node.withMode (0o666 - (0o666 &&& umask)))
      return result
    | _ => withFiles (Files.write path.string (Chars.toBytes text))

end Act

namespace Tool

/-- The entries of a directory in the order in which it tells them to those who do not sort them, the
last one first. -/
def unsorted (n : Node) : List (String × Node) := n.entries.reverse

end Tool
end Shell
end FirmwareLane
