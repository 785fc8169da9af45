import FirmwareLane.Files.Node
import FirmwareLane.Shell.Text

/-!
# Permissions

Permissions as numbers, as letters, and as clauses that change them.
-/

set_option autoImplicit false
namespace FirmwareLane
namespace Shell
namespace Tool

/-- The permissions that a number to the base eight stands for. -/
def octalMode? (s : Chars) : Option Nat := Text.Numeral.read? 8 s

/-- All bits of permissions. -/
def allModes : Nat := 0o7777

/-- A number without the bits of another one. -/
def withoutBits (n bits : Nat) : Nat := n - (n &&& bits)

/-- A change of permissions. -/
structure ModeChange where
  /-- Whether the bits are added, taken away, or are the ones that remain. -/
  operator : Char
  /-- The bits that may change; none if the mask for new files decides that. -/
  affected : Nat
  /-- The bits that the text of the change names; a directory keeps the first two bits, that users
  share, unless they are named. -/
  mentioned : Nat
  value : Nat
  /-- Whether the value tells whose present permissions count instead. -/
  copies : Bool
  /-- Whether what can be run, and directories, can be run by more users. -/
  spreads : Bool

namespace ModeChange

/-- The permissions of some users as permissions of all. -/
def forAll (bits : Nat) : Nat :=
  [0o444, 0o222, 0o111].foldl (fun n all ↦ if bits &&& all != 0 then n ||| all else n) 0

/-- The permissions that a change makes of permissions. -/
def apply (isDirectory : Bool) (umask mode : Nat) (c : ModeChange) : Nat :=
  let omitted := if isDirectory then withoutBits 0o6000 c.mentioned else 0
  let value := if c.copies then forAll (c.value &&& mode)
    else if c.spreads && (isDirectory || mode &&& 0o111 != 0) then c.value ||| 0o111
    else c.value
  let allowed := if c.affected = 0 then withoutBits allModes umask else c.affected
  let value := withoutBits (value &&& allowed) omitted
  match c.operator with
  | '+' => mode ||| value
  | '-' => withoutBits mode value
  | _ =>
    let kept := (if c.affected = 0 then 0 else withoutBits allModes c.affected) ||| omitted
    (mode &&& kept) ||| value

/-- The bits of the users that a letter stands for. -/
def usersOf? : Char → Option Nat
  | 'u' => some 0o4700
  | 'g' => some 0o2070
  | 'o' => some 0o1007
  | 'a' => some allModes
  | _ => none

/-- The bits that a letter of permissions stands for. -/
def bitsOf? : Char → Option Nat
  | 'r' => some 0o444
  | 'w' => some 0o222
  | 'x' => some 0o111
  | 'X' => some 0
  | 's' => some 0o6000
  | 't' => some 0o1000
  | _ => none

/-- Whether a character says what becomes of permissions. -/
def isOperator (c : Char) : Bool := c = '+' || c = '-' || c = '='

/-- The changes that the operators of a clause describe, each with its permissions, for the users in
front of them; fuel for one step per operator. -/
def readOperators (affected : Nat) : Nat → Chars → Option (List ModeChange)
  | 0, _ => none
  | _, [] => some []
  | fuel + 1, op :: rest =>
    if !isOperator op then none
    else
      let digits := rest.takeWhile fun c ↦ '0' ≤ c && c ≤ '7'
      match digits, rest with
      | _ :: _, _ =>
        match octalMode? digits, affected, rest.drop digits.length with
        | some value, 0, [] =>
          if value ≤ allModes then some [⟨op, allModes, allModes, value, false, false⟩] else none
        | _, _, _ => none
      | [], who :: tail =>
        match (if who = 'a' then none else usersOf? who) with
        | some users =>
          (readOperators affected fuel tail).map
            (⟨op, affected, 0, users &&& 0o777, true, false⟩ :: ·)
        | none => plain op rest fuel
      | [], [] => plain op [] fuel
where
  /-- A change that is described by the letters of permissions. -/
  plain (op : Char) (rest : Chars) (fuel : Nat) : Option (List ModeChange) :=
    let letters := rest.takeWhile fun c ↦ (bitsOf? c).isSome
    let value := (letters.filterMap bitsOf?).foldl (· ||| ·) 0
    match rest.drop letters.length, fuel with
    | [], _ => some [change op value letters]
    | tail, fuel + 1 => (readOperators affected fuel tail).map (change op value letters :: ·)
    | _, 0 => none
  /-- The change of an operator and letters. -/
  change (op : Char) (value : Nat) (letters : Chars) : ModeChange :=
    let mentioned := if affected = 0 then value else affected &&& value
    ⟨op, affected, mentioned, value, false, letters.contains 'X'⟩

/-- The changes that a clause describes. -/
def readClause (clause : Chars) : Option (List ModeChange) :=
  let users := clause.takeWhile fun c ↦ (usersOf? c).isSome
  let rest := clause.drop users.length
  if rest.isEmpty then none
  else readOperators ((users.filterMap usersOf?).foldl (· ||| ·) 0) (rest.length + 1) rest

/-- The changes that a text describes. -/
def readAll (text : Chars) : Option (List ModeChange) :=
  if (text.head?.map Char.isDigit).getD false then
    match octalMode? text with
    | some m =>
      let mentioned := if text.length < 5 then (m &&& 0o6000) ||| 0o1777 else allModes
      if m ≤ allModes then some [⟨'=', allModes, mentioned, m, false, false⟩] else none
    | none => none
  else ((pieces ',' text).mapM readClause).map List.flatten

end ModeChange

/-- The permissions that changes make of permissions. -/
def changedMode (isDirectory : Bool) (umask mode : Nat) (changes : List ModeChange) : Nat :=
  changes.foldl (ModeChange.apply isDirectory umask) mode

/-- The permissions that a text makes of permissions. -/
def newMode? (isDirectory : Bool) (mode umask : Nat) (text : Chars) : Option Nat :=
  (ModeChange.readAll text).map (changedMode isDirectory umask mode)

/-- The letter of the kind of a node and the letters of its permissions. -/
def modeText (n : Node) : Chars :=
  let kind := match n with
    | .file _ _ _ => '-'
    | .link _ => 'l'
    | .directory _ _ => 'd'
    | .device _ => 'c'
  let has (bit : Nat) : Bool := n.mode &&& bit != 0
  let letter (bit : Nat) (c : Char) : Char := if has bit then c else '-'
  let last (bit special : Nat) (c : Char) : Char :=
    if has special then (if has bit then c else c.toUpper) else letter bit 'x'
  kind :: [letter 0o400 'r', letter 0o200 'w', last 0o100 0o4000 's', letter 0o040 'r',
    letter 0o020 'w', last 0o010 0o2000 's', letter 0o004 'r', letter 0o002 'w',
    last 0o001 0o1000 't']

/-- The letters of permissions without the kind of a node. -/
def permissionText (n : Node) : Chars := (modeText n).drop 1

end Tool
end Shell
end FirmwareLane
