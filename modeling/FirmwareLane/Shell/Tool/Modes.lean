import FirmwareLane.Shell.Tool.Facts
import FirmwareLane.Shell.Tool.Removing

/-!
# The tool that changes permissions

It changes the permissions of files, and of everything in directories, to those of another file or in
the way that a text describes.
-/

set_option autoImplicit false
namespace FirmwareLane
namespace Shell
namespace Tool

open Act

/-- How permissions are changed. -/
structure ModeTask where
  arguments : Arguments
  changes : List ModeChange
  umask : Nat
  /-- Whether the text of the change stands where options do, so that it is told if the mask for new
  files keeps it from what it seems to ask for. -/
  isSurprising : Bool

namespace ModeTask

/-- The permissions of a node in a message. -/
def shown (n : Node) (mode : Nat) : String :=
  Chars.string (Text.Numeral.writePadded 8 4 mode) ++ " (" ++
    (permissionText (n.withMode mode)).string ++ ")"

/-- Complains about a node that cannot be used. -/
def fail (t : ModeTask) (text : String) : Act Bool := do
  unless t.arguments.has 'f' do complain "chmod" text
  return false

/-- Tells about a node if options ask for it. -/
def tellOf (t : ModeTask) (always : Bool) (text : String) : Act Unit := do
  if t.arguments.has 'v' || (!always && t.arguments.has 'c') then say (Chars.ofString (text ++ "\n"))

/-- Complains about a path that there is no way to. -/
def inaccessible (t : ModeTask) (path : Chars) (text : String) : Act Bool := do
  let _ ← t.fail text
  t.tellOf true (path.quoted ++ " could not be accessed")
  return false

/-- Changes the permissions of a node. -/
def one (t : ModeTask) (path : Chars) (place : Place) (old : Node) : Act Bool := do
  let mode := changedMode old.isDirectory t.umask old.mode t.changes
  if belongsToRoot place then
    t.fail ("changing permissions of " ++ path.quoted ++ ": " ++
      Files.Fault.notPermitted.reason)
  else
    match old with
    | .file _ _ _ => reshape fun root ↦ root.alterFile place (Node.withMode mode)
    | _ => reshape fun root ↦ root.put place (old.withMode mode)
    if old.mode != mode then
      t.tellOf false ("mode of " ++ path.quoted ++ " changed from " ++ shown old old.mode ++ " to " ++
        shown old mode)
    else t.tellOf true ("mode of " ++ path.quoted ++ " retained as " ++ shown old mode)
    let naive := changedMode old.isDirectory 0 old.mode t.changes
    if t.isSurprising && withoutBits mode naive != 0 then
      let letters (m : Nat) : String := (permissionText (old.withMode m)).string
      complain "chmod" (path.shown ++ ": new permissions are " ++ letters mode ++ ", not " ++
        letters naive)
      return false
    else return true

/-- Changes the permissions of a node, and of everything in it if that is wanted; tells whether all
could be changed.  Fuel bounds how deep directories stand in each other. -/
def all (t : ModeTask) : Nat → Chars → Place → Act Bool
  | 0, _, _ => return false
  | fuel + 1, path, place => do
    match (← files).root.at? place with
    | none => return false
    | some old =>
      let fine ← t.one path place old
      match (← files).root.at? place with
      | some (.directory mode entries) =>
        let new := Node.directory mode entries
        if !t.arguments.has 'R' then return fine
        else if !new.allows .read then
          t.fail ("cannot read directory " ++ path.quoted ++ ": " ++ Files.Fault.denied.reason)
        else
          let mut fine := fine
          for (name, child) in unsorted new do
            let below := path ++ '/' :: Chars.ofString name
            if !new.allows .search then
              fine ← t.inaccessible below
                ("cannot access " ++ below.quoted ++ ": " ++ Files.Fault.denied.reason)
            else if child.isLink then
              t.tellOf true ("neither symbolic link " ++ below.quoted ++
                " nor referent has been changed")
            else unless ← t.all fuel below (place ++ [name]) do fine := false
          return fine
      | _ => return fine

end ModeTask

/-- The words with a mode that begins like an option given as a value. -/
def withModeWords : List Chars → List Chars
  | [] => []
  | w :: rest =>
    match w with
    | ['-', '-'] => w :: rest
    | '-' :: '-' :: _ => w :: withModeWords rest
    | '-' :: letters =>
      let options := letters.takeWhile fun c ↦ "Rcfv".toList.contains c
      let mode := letters.drop options.length
      let isMode := mode.head?.any fun c ↦ "rwxXstugoa,+=01234567".toList.contains c
      if isMode then
        (if options.isEmpty then [] else ['-' :: options]) ++ ['-', 'μ'] :: ('-' :: mode) ::
          withModeWords rest
      else w :: withModeWords rest
    | w => w :: withModeWords rest

/-- Changes permissions. -/
def chmod : Tool := fun words ↦
  withArguments "chmod"
    ⟨"Rcfvπσ", "μρ",
      [("recursive", 'R'), ("changes", 'c'), ("quiet", 'f'), ("silent", 'f'), ("verbose", 'v'),
        ("reference", 'ρ'), ("preserve-root", 'π'), ("no-preserve-root", 'σ')]⟩
    (withModeWords words) fun a ↦ do
      let umask := (← process).umask
      let fs ← files
      let modes := a.values 'μ'
      let isOperand := modes.isEmpty && !a.has 'ρ'
      let names := if isOperand then a.operands.drop 1 else a.operands
      let text := if isOperand then (a.operands.head?).getD [] else joinWith [','] modes
      if a.has 'ρ' && !modes.isEmpty then
        misused "chmod" "cannot combine mode and --reference options"
      else if names.isEmpty then
        if isOperand && !a.operands.isEmpty then
          misused "chmod" ("missing operand after " ++ text.marked)
        else misused "chmod" "missing operand"
      else
        let found : Except (Option (Chars × Files.Fault)) (List ModeChange) :=
          match a.value? 'ρ' with
          | some name =>
            match fs.node name.string with
            | .ok n => .ok [⟨'=', allModes, allModes, n.mode, false, false⟩]
            | .error fault => .error (some (name, fault))
          | none =>
            match ModeChange.readAll text with
            | some changes => .ok changes
            | none => .error none
        match found with
        | .error none => misused "chmod" ("invalid mode: " ++ text.marked)
        | .error (some (name, fault)) => do
          complain "chmod" ("failed to get attributes of " ++ name.quoted ++ ": " ++ fault.reason)
          return 1
        | .ok changes =>
          let t : ModeTask := ⟨a, changes, umask, !modes.isEmpty⟩
          each names fun name ↦ do
            let fs ← files
            match fs.present true name.string with
            | .ok (place, _) => t.all deepest name place
            | .error fault =>
              if (fs.present false name.string).isOk && fault = .notFound then
                t.inaccessible name ("cannot operate on dangling symlink " ++ name.quoted)
              else
                t.inaccessible name ("cannot access " ++ name.quoted ++ ": " ++ fault.reason)

end Tool
end Shell
end FirmwareLane
