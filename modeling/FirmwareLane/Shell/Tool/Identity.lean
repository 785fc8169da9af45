import FirmwareLane.Shell.Builtin.Basic
import FirmwareLane.Shell.Tool.Start

/-!
# Tools that tell who and where

Tools that tell which user runs them and on which machine, and programs of their own for what a shell
carries out itself.
-/

set_option autoImplicit false
namespace FirmwareLane
namespace Shell
namespace Tool

open Act

/-! ## Users -/

/-- The users that there are, with their numbers and their groups, the running one first. -/
def users : List (String × Nat × String) :=
  [("nobody", 65534, "nogroup"), ("root", 0, "root"), ("daemon", 1, "daemon")]

/-- The user that a word names. -/
def userNamed? (w : Chars) : Option (String × Nat × String) :=
  users.find? fun u ↦ u.1.toList == w || number u.2.1 == w

/-- What options ask for about a user, or why they make no sense. -/
def aboutUser (a : Arguments) (u : String × Nat × String) : Except String Chars :=
  let (name, n, group) := u
  let kinds := "ugG".toList.filter a.has
  let ending := if a.has 'z' then '\x00' else '\n'
  let shown (text : String) : Chars := (if a.has 'n' then text.toList else number n) ++ [ending]
  match kinds with
  | ['u'] => .ok (shown name)
  | [_] => .ok (shown group)
  | [] =>
    if a.has 'n' || a.has 'r' then .error "cannot print only names or real IDs in default format"
    else if a.has 'z' then .error "option --zero not permitted in default format"
    else
      let part (key name : String) : Chars :=
        key.toList ++ '=' :: number n ++ '(' :: name.toList ++ [')']
      .ok (joinWith [' '] [part "uid" name, part "gid" group, part "groups" group] ++ ['\n'])
  | _ => .error "cannot print \"only\" of more than one choice"

/-- Tells about users. -/
def id : Tool := fun words ↦
  withArguments "id"
    ⟨"augGnrz", "",
      [("group", 'g'), ("groups", 'G'), ("name", 'n'), ("real", 'r'), ("user", 'u'), ("zero", 'z')]⟩
    words fun a ↦ do
      let tell (u : String × Nat × String) : Act Bool := do
        match aboutUser a u with
        | .ok text => do
          say text
          return true
        | .error fault => do
          complain "id" fault
          return false
      if a.operands.isEmpty then each (users.take 1) tell
      else
        each a.operands fun w ↦ do
          match userNamed? w with
          | some u => tell u
          | none => do
            complain "id" ("'" ++ w.string ++ "': no such user")
            return false
where
  /-- Does something for every user, and fails if one of them fails. -/
  each {α : Type} (xs : List α) (act : α → Act Bool) : Act Nat := do
    let mut status := 0
    for x in xs do
      unless ← act x do status := 1
    return status

/-- Tells the groups of users. -/
def groups : Tool := fun words ↦
  withArguments "groups" ⟨"", "", []⟩ words fun a ↦ do
    if a.operands.isEmpty then
      for u in users.take 1 do say (u.2.2.toList ++ ['\n'])
      return 0
    else
      each a.operands fun w ↦ do
        match userNamed? w with
        | some u => do
          say (w ++ " : ".toList ++ u.2.2.toList ++ ['\n'])
          return true
        | none => do
          complain "groups" ("'" ++ w.string ++ "': no such user")
          return false

/-- A program without options and operands that prints a line. -/
def printing (program line : String) : Tool := fun words ↦
  withArguments program ⟨"", "", []⟩ words fun a ↦ do
    match a.operands with
    | w :: _ => misused program ("extra operand '" ++ w.string ++ "'")
    | [] => do
      say (Chars.ofString (line ++ "\n"))
      return 0

/-- Tells who has begun to work at a terminal, which nobody has. -/
def logname : Tool := fun words ↦
  withArguments "logname" ⟨"", "", []⟩ words fun a ↦ do
    match a.operands with
    | w :: _ => misused "logname" ("extra operand '" ++ w.string ++ "'")
    | [] => do
      complain "logname" "no login name"
      return 1

/-! ## Machines -/

/-- What a machine tells about itself, by the letters of options. -/
def machineParts : List (Char × String) :=
  [('s', "Linux"), ('n', "localhost"), ('r', "6.8.0"), ('v', "#1 SMP"), ('m', "x86_64"),
   ('p', "x86_64"), ('i', "x86_64"), ('o', "GNU/Linux")]

/-- Tells about the machine. -/
def uname : Tool := fun words ↦
  withArguments "uname"
    ⟨"asnrvmpio", "",
      [("all", 'a'), ("kernel-name", 's'), ("nodename", 'n'), ("kernel-release", 'r'),
        ("kernel-version", 'v'), ("machine", 'm'), ("processor", 'p'), ("hardware-platform", 'i'),
        ("operating-system", 'o')]⟩ words fun a ↦ do
    match a.operands with
    | w :: _ => misused "uname" ("extra operand '" ++ w.string ++ "'")
    | [] => do
      let asked := machineParts.filter fun p ↦ a.has 'a' || a.has p.1
      let asked := if a.options.isEmpty then machineParts.take 1 else asked
      say (joinWith [' '] (asked.map fun p ↦ p.2.toList) ++ ['\n'])
      return 0

/-- Tells how many processors there are. -/
def nproc : Tool := fun words ↦
  withArguments "nproc" ⟨"", "i", [("all", 'a'), ("ignore", 'i')]⟩ words fun _ ↦ do
    say "1\n".toList
    return 0

/-- Tells which terminal the input is. -/
def tty : Tool := fun words ↦
  withArgumentsOr 2 "tty" ⟨"s", "", [("silent", 's'), ("quiet", 's')]⟩ words fun a ↦ do
    match a.operands with
    | w :: _ => misusedWith 2 "tty" ("extra operand '" ++ w.string ++ "'")
    | [] => do
      unless a.has 's' do say "not a tty\n".toList
      return 1

/-- A program that only ends with a status. -/
def ending (status : Nat) : Tool := fun _ ↦ return status

/-- Writes files to where they are kept, which changes nothing. -/
def sync : Tool := fun words ↦
  withArguments "sync" ⟨"df", "", [("data", 'd'), ("file-system", 'f')]⟩ words fun a ↦
    each a.operands fun name ↦ do
      match (← files).node name.string with
      | .ok _ => return true
      | .error fault => do
        complain "sync" ("error opening '" ++ name.string ++ "': " ++ fault.reason)
        return false

/-! ## Programs for what a shell does itself -/

/-- A text whose escapes with hexadecimal digits are written with octal digits, given how many of
these an escape may have with its first zero; fuel for one step per character. -/
def withoutHex (width : Nat) : Nat → Chars → Chars
  | fuel + 1, '\\' :: 'x' :: rest =>
    let ds := (rest.take 2).takeWhile fun c ↦ (Text.Numeral.digitIn? 16 c).isSome
    match Text.Numeral.read? 16 ds with
    | some n => '\\' :: Text.Numeral.writePadded 8 width n ++
        withoutHex width fuel (rest.drop ds.length)
    | none => '\\' :: 'x' :: withoutHex width fuel rest
  | fuel + 1, '\\' :: c :: rest => '\\' :: c :: withoutHex width fuel rest
  | fuel + 1, c :: rest => c :: withoutHex width fuel rest
  | _, s => s

/-- Prints its arguments, with their escapes replaced if that is asked for. -/
def echo : Tool := fun words ↦ do
  let isOption (w : Chars) : Bool :=
    w.head? = some '-' && 1 < w.length && (w.drop 1).all fun c ↦ "neE".toList.contains c
  let letters := (words.takeWhile isOption).flatMap (·.drop 1)
  let text := joinWith [' '] (words.dropWhile isOption)
  let escapes := letters.reverse.find? (· != 'n') == some 'e'
  let (text, ended) := if escapes then Format.unescape (withoutHex 4 (text.length + 1) text)
    else (text, false)
  say (if ended || letters.contains 'n' then text else text ++ ['\n'])
  return 0

/-- What a program says of a fault in a format. -/
def formatFault : Format.Fault → String
  | .noNumber text => "'" ++ text.string ++ "': expected a numeric value"
  | .notWhole text => "'" ++ text.string ++ "': value not completely converted"
  | .outOfRange text => "'" ++ text.string ++ "': Numerical result out of range"
  | .unknownDirective text => text.string ++ ": invalid conversion specification"
  | .noDirective => "%: invalid conversion specification"

/-- Prints its arguments in a form. -/
def printf : Tool := fun words ↦ do
  let words := if words.head? = some ['-', '-'] then words.drop 1 else words
  match words with
  | [] => misused "printf" "missing operand"
  | format :: arguments => do
    let (text, faults) := Format.print (withoutHex 3 (format.length + 1) format) arguments
    say text
    for fault in faults do complain "printf" (formatFault fault)
    let hasDirective := (format.zip (format.drop 1)).any fun p ↦ p.1 == '%' && p.2 != '%'
    match arguments with
    | w :: _ =>
      if !hasDirective then
        complain "printf" ("warning: ignoring excess arguments, starting with '" ++ w.string ++ "'")
    | [] => pure ()
    return if faults.isEmpty then 0 else 1

/-- Tells whether a condition holds, for a program of a name. -/
def testAs (program : String) (words : List Chars) : Act Nat := do
  let word (i : Nat) : String := Chars.string ((words[i]?).getD [])
  match Condition.holds (← files) words with
  | .ok holds => return if holds then 0 else 1
  | .error (.illegalNumber w) => do
    complain program ("invalid integer '" ++ w.string ++ "'")
    return 2
  | .error _ => do
    complain program <|
      if words.length = 3 then "'" ++ word 1 ++ "': binary operator expected"
      else if words.length < 3 then "missing argument after '" ++ word (words.length - 1) ++ "'"
      else "extra argument '" ++ word (words.length - 1) ++ "'"
    return 2

/-- Tells whether a condition holds. -/
def test : Tool := testAs "test"

/-- Tells whether the condition before a closing bracket holds. -/
def bracket : Tool := fun words ↦ do
  if words.getLast? = some [']'] then testAs "[" words.dropLast
  else
    complain "[" "missing ']'"
    return 2

/-- Tells where the shell is. -/
def pwd : Tool := fun words ↦
  withArguments "pwd" ⟨"LP", "", [("logical", 'L'), ("physical", 'P')]⟩ words fun a ↦ do
    unless a.operands.isEmpty do complain "pwd" "ignoring non-option arguments"
    let here := (← process).place
    let named ← value "PWD"
    let isThere := match (← files).present true named.string with
      | .ok (place, _) => place == here
      | .error _ => false
    let isLogical := a.last? "LP" == some 'L' && isThere && named.head? == some '/'
    say ((if isLogical then named else pathOf here) ++ ['\n'])
    return 0

end Tool
end Shell
end FirmwareLane
