import FirmwareLane.Shell.Tool.Naming
import FirmwareLane.Shell.Tool.Permission

/-!
# Facts about files

What a file system knows about a node beside its content, and the tool that tells it in a format.
-/

set_option autoImplicit false
namespace FirmwareLane
namespace Shell
namespace Tool

open Act

/-! ## Facts -/

/-- The number of bytes of a node. -/
def sizeOf (n : Node) : Nat :=
  match n with
  | .link target => target.utf8ByteSize
  | .directory _ _ => 4096
  | n => n.bytes.length

/-- What a kind of node is called. -/
def kindName : Node → String
  | .file _ [] _ => "regular empty file"
  | .file _ _ _ => "regular file"
  | .link _ => "symbolic link"
  | .directory _ _ => "directory"
  | .device _ => "character special file"

/-- The number of names of a node in a tree. -/
def namesOf (root : Node) (n : Node) : Nat :=
  match n with
  | .file _ _ i => if i = 0 then 1 else max 1 (root.withIdentity i).length
  | .directory _ entries => 2 + entries.countP fun e ↦ e.2.isDirectory
  | _ => 1

/-- The number of a kind of node in front of its permissions. -/
def kindNumber (n : Node) : Nat :=
  match n with
  | .file _ _ _ => 0o100000
  | .link _ => 0o120000
  | .directory _ _ => 0o040000
  | .device _ => 0o020000

/-- The number of blocks of 512 bytes that a node takes. -/
def blocksOf (n : Node) : Nat :=
  match n with
  | .link _ => 0
  | .device _ => 0
  | n => 8 * ((sizeOf n + 4095) / 4096)

/-- The number that a device has among those of its kind. -/
def minorOf : Device → Nat
  | .null => 3
  | .zero => 5
  | .full => 7

/-- Whether what is at a place belongs to the one user who may do everything: all but what is in the
directory for what is passing. -/
def belongsToRoot (place : Place) : Bool := place.length ≤ 1 || place.head? != some "tmp"

/-- A user or a group, by its name and its number. -/
abbrev Owner := String × Nat

/-- The user and the group that what is at a place belongs to. -/
def ownersAt (place : Place) : Owner × Owner :=
  if belongsToRoot place then (("root", 0), ("root", 0)) else (("nobody", 65534), ("nogroup", 65534))

/-- A node with the permissions that it shows: those who belong to the one user who may do everything
show that this user may. -/
def displayed (place : Place) (n : Node) : Node :=
  if belongsToRoot place then
    match n with
    | .device _ => n
    | n => n.withMode (if n.mode = 0 then 0o700 else n.mode ||| 0o200)
  else n

/-! ## Formats -/

/-- How a fact is filled up in a format. -/
structure Filling where
  flags : Chars
  width : Nat
  precision : Option Nat

/-- A number as a fact. -/
def Filling.number (f : Filling) (base n : Nat) : Chars :=
  let digits := Text.Numeral.write base n
  let digits := List.replicate (f.precision.getD 0 - digits.length) '0' ++ digits
  let mark : Chars := if f.flags.contains '#' then
      (if base = 16 then "0x".toList else if base = 8 && digits.head? != some '0' then ['0'] else [])
    else []
  let body := mark ++ digits
  let missing := f.width - body.length
  if f.flags.contains '-' then body ++ List.replicate missing ' '
  else if f.flags.contains '0' then mark ++ List.replicate missing '0' ++ digits
  else List.replicate missing ' ' ++ body

/-- A text as a fact. -/
def Filling.text (f : Filling) (s : Chars) : Chars :=
  let s := match f.precision with
    | some n => s.take n
    | none => s
  let blanks := List.replicate (f.width - s.length) ' '
  if f.flags.contains '-' then s ++ blanks else blanks ++ s

/-- The escape at the front of a format, behind its backslash, and what follows it. -/
def formatEscape (s : Chars) : Chars × Chars :=
  match s with
  | [] => (['\\'], [])
  | c :: rest =>
    let octal := s.takeWhile fun c ↦ '0' ≤ c && c ≤ '7'
    let hexadecimal := (rest.takeWhile fun c ↦ (Text.Numeral.digitIn? 16 c).isSome).take 2
    if !octal.isEmpty then
      let digits := octal.take 3
      ([Char.ofNat ((octalMode? digits).getD 0 % 256)], s.drop digits.length)
    else if c = 'x' && !hexadecimal.isEmpty then
      ([Char.ofNat ((Text.Numeral.read? 16 hexadecimal).getD 0)], rest.drop hexadecimal.length)
    else
      let plain := [('a', '\x07'), ('b', '\x08'), ('e', '\x1b'), ('f', '\x0c'), ('n', '\n'),
        ('r', '\r'), ('t', '\t'), ('v', '\x0b')]
      ([(plain.lookup c).getD c], rest)

/-- A node whose facts are told. -/
structure Subject where
  root : Node
  name : Chars
  place : Place
  node : Node

/-- The fact that a letter asks for. -/
def Subject.fact (x : Subject) (f : Filling) (letter : Char) : Chars :=
  let n := displayed x.place x.node
  let (user, group) := ownersAt x.place
  let minor := match n with
    | .device d => some (minorOf d)
    | _ => none
  match letter with
  | 'a' => f.number 8 n.mode
  | 'A' => f.text (modeText n)
  | 'b' => f.number 10 (blocksOf n)
  | 'B' => f.number 10 512
  | 'f' => f.number 16 (kindNumber n + n.mode)
  | 's' => f.number 10 (sizeOf n)
  | 'n' => f.text x.name
  | 'N' => f.text (Quotation.word x.name ++ match n with
    | .link target => " -> ".toList ++ Quotation.word (Chars.ofString target)
    | _ => [])
  | 'F' => f.text (kindName n).toList
  | 'u' => f.number 10 user.2
  | 'g' => f.number 10 group.2
  | 'U' => f.text user.1.toList
  | 'G' => f.text group.1.toList
  | 'h' => f.number 10 (namesOf x.root n)
  | 'o' => f.number 10 4096
  | 't' => f.number 16 (if minor.isSome then 1 else 0)
  | 'T' => f.number 16 (minor.getD 0)
  | '%' => ['%']
  | _ => ['?']

/-- The text that a format makes of a node; fuel for one step per character. -/
def Subject.told (x : Subject) (escapes : Bool) : Nat → Chars → Chars
  | 0, _ => []
  | _, [] => []
  | _, ['%'] => ['%']
  | fuel + 1, '%' :: rest =>
    let flags := rest.takeWhile fun c ↦ "-+ #0'".toList.contains c
    let rest := rest.drop flags.length
    let width := rest.takeWhile Char.isDigit
    let rest := rest.drop width.length
    let (precision, rest) := match rest with
      | '.' :: tail =>
        let digits := tail.takeWhile Char.isDigit
        (some ((number? digits).getD 0), tail.drop digits.length)
      | rest => (none, rest)
    match rest with
    | [] => []
    | letter :: rest =>
      x.fact ⟨flags, (number? width).getD 0, precision⟩ letter ++ x.told escapes fuel rest
  | fuel + 1, '\\' :: rest =>
    if escapes then
      let (c, rest) := formatEscape rest
      c ++ x.told escapes fuel rest
    else '\\' :: x.told escapes fuel rest
  | fuel + 1, c :: rest => c :: x.told escapes fuel rest

/-- Tells about nodes in a format. -/
def stat : Tool := fun words ↦
  withArguments "stat"
    ⟨"Lft", "cp",
      [("format", 'c'), ("printf", 'p'), ("dereference", 'L'), ("file-system", 'f'),
        ("terse", 't')]⟩ words
    fun a ↦
      if a.operands.isEmpty then misused "stat" "missing operand"
      else each a.operands fun name ↦ do
        let fs ← files
        match fs.present (a.has 'L') name.string with
        | .ok (place, n) => do
          let told (escapes : Bool) (format : Chars) : Chars :=
            Subject.told ⟨fs.root, name, place, n⟩ escapes (format.length + 1) format
          match a.value? 'p', a.value? 'c' with
          | some format, _ => say (told true format)
          | none, some format => say (told false format ++ ['\n'])
          | none, none => say ("  File: ".toList ++ name ++ ['\n'])
          return true
        | .error fault => do
          complain "stat" ("cannot statx " ++ name.quoted ++ ": " ++ fault.reason)
          return false

end Tool
end Shell
end FirmwareLane
