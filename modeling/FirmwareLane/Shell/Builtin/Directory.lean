import FirmwareLane.Shell.Builtin.Basic
import FirmwareLane.Shell.Tool.Naming
import FirmwareLane.Shell.Tool.Permission

/-!
# Commands for the directory of a shell

Commands of the shell that go to a directory and tell which it is, and that set the permissions of
what is made in it.
-/

set_option autoImplicit false
namespace FirmwareLane
namespace Shell
namespace Builtin

open Act

/-- The names of a logical path, with its dots taken away. -/
def logicalNames (done : List Chars) : List Chars → List Chars
  | [] => done
  | name :: rest =>
    if name.isEmpty ∨ name = ['.'] then logicalNames done rest
    else if name = ['.', '.'] then logicalNames done.dropLast rest
    else logicalNames (done ++ [name]) rest

/-- A path without its dots, which begins at the root.  Two slashes in front stay two. -/
def logicalPath (path : Chars) : Chars :=
  let names := logicalNames [] (pieces '/' path)
  let start := if "//".toList.isPrefixOf path && path[2]? != some '/' then ['/'] else []
  start ++ if names.isEmpty then ['/'] else names.flatMap fun n ↦ '/' :: n

/-- Whether a path is looked for only where the shell is. -/
def isPlaced (path : Chars) : Bool :=
  let first := path.takeWhile (· != '/')
  first.isEmpty || first = ['.'] || first = ['.', '.']

/-- The first directory of a name in the directories of a list, and whether the list names it. -/
def listed (fs : Files) (name : Chars) : List Chars → Chars × Bool
  | [] => (name, false)
  | d :: rest =>
    let path := if d.isEmpty then name else d ++ '/' :: name
    if fs.isDirectory path.string then (path, !d.isEmpty) else listed fs name rest

/-- Goes to a directory. -/
def cd : Tool := fun words ↦ do
  let a ← arguments "PL" "" words
  let physical := a.last? "PL" == some 'P'
  let back := a.operands.head? == some ['-']
  let wanted ← match a.operands with
    | w :: _ => if back then value "OLDPWD" else pure w
    | [] => value "HOME"
  let fs ← files
  let (target, shown) ← if wanted.isEmpty then pure (['.'], false)
    else if isPlaced wanted then pure (wanted, false)
    else pure (listed fs wanted (pieces ':' (← value "CDPATH")))
  let current ← value "PWD"
  let logical := logicalPath (if target.head? = some '/' then target else current ++ '/' :: target)
  let path := if physical then target else logical
  match fs.present true (Chars.string path) with
  | .ok (place, .directory mode entries) => do
    if !(Node.directory mode entries).allows .search then fail ("can't cd to " ++ wanted.string)
    let name := if physical then Tool.pathOf place else logical
    alter fun p ↦ { p with place }
    for (name, value) in [("OLDPWD".toList, current), ("PWD".toList, name)] do
      assign name value
      putVariable name ⟨some value, true, false⟩
    if back || shown then say (name ++ ['\n'])
    return 0
  | _ => fail ("can't cd to " ++ wanted.string)

/-- Tells where the shell is. -/
def pwd : Tool := fun words ↦ do
  let a ← arguments "PL" "" words
  let path ← if a.last? "PL" == some 'P' then pure (Tool.pathOf (← process).place)
    else value "PWD"
  say (path ++ ['\n'])
  return 0

/-- The permissions of a class of users, as letters. -/
def permissionLetters (bits : Nat) : Chars :=
  [('r', 4), ('w', 2), ('x', 1)].filterMap fun (c, bit) ↦ if bits &&& bit != 0 then some c else none

/-- Shows or sets the permissions that new files do not get. -/
def umask : Tool := fun words ↦ do
  let mask := (← process).umask
  let a ← arguments "S" "" words
  match a.operands with
  | [] => do
    if a.has 'S' then
      let given := 0o777 - (0o777 &&& mask)
      let clause (c : Char) (bits : Nat) : Chars := c :: '=' :: permissionLetters bits
      say (joinWith [','] [clause 'u' (given / 64), clause 'g' (given / 8), clause 'o' given] ++
        ['\n'])
    else say (Text.Numeral.writePadded 8 4 mask ++ ['\n'])
    return 0
  | w :: _ =>
    if (w.head?.map Char.isDigit).getD false then
      match Tool.octalMode? w with
      | some m => do
        alter fun p ↦ { p with umask := m % 0o1000 }
        return 0
      | none => fail ("Illegal number: " ++ w.string)
    else
      match Tool.newMode? false (0o777 - (0o777 &&& mask)) 0 w with
      | some given => do
        alter fun p ↦ { p with umask := 0o777 - (0o777 &&& given) }
        return 0
      | none => fail ("Illegal mode: " ++ w.string)

end Builtin
end Shell
end FirmwareLane
