import FirmwareLane.Shell.Tool.Making

/-!
# Tools that remove files

Tools that remove files and directories, asking before they do so if they are told to.
-/

set_option autoImplicit false
namespace FirmwareLane
namespace Shell
namespace Tool

open Act

/-! ## Files -/

/-- Asks whether something may be done to a node, if `asks`. -/
def mayRemove (asks : Bool) (doing : String) (path : Chars) (node : Node) : Act Bool :=
  let mark := if node.allows .write then "" else "write-protected "
  confirm asks "rm" (doing ++ " " ++ mark ++ kindName node ++ " " ++ path.quoted)

/-- What became of a node that was to be removed. -/
inductive Removal where
  | done
  | failed
  /-- It was left because the answer to a question was no. -/
  | kept
  deriving DecidableEq, Repr

/-- Removes a node with what is in it, as far as that is allowed.  Fuel bounds how deep directories
stand in each other. -/
def removeNode (a : Arguments) (asks : Bool) : Nat → Chars → Place → Act Removal
  | 0, _, _ => return .failed
  | fuel + 1, path, place => do
    let fs ← files
    let fail (fault : Files.Fault) : Act Removal := do
      let _ ← cannot "rm" "remove" path fault
      return .failed
    match fs.root.at? place with
    | none => return .done
    | some node =>
      let isOpen := node.allows .read && node.allows .search
      let isEmpty := node.entries.isEmpty
      if node.isDirectory && !isEmpty && !isOpen then fail .denied
      else if !(← mayRemove (asks && !isEmpty) "descend into" path node) then return .kept
      else
        let mut result := Removal.done
        for (name, _) in Tool.unsorted node do
          match ← removeNode a asks fuel (path ++ '/' :: Chars.ofString name)
              (place ++ [name]) with
          | .done => pure ()
          | other => if result != .failed then result := other
        if result != .done then return result
        else if !(← mayRemove asks "remove" path node) then return .kept
        else if !fs.mayChange place then fail .denied
        else
          reshape fun root ↦ root.erase place
          let kind := if node.isDirectory then "removed directory " else "removed "
          tell a (kind ++ path.quoted)
          return .done

/-- How deep directories may stand in each other. -/
def deepest : Nat := 2048

/-- Removes what a path names. -/
def removePath (a : Arguments) (recursive asks : Bool) (name : Chars) : Act Bool := do
  let last := lastName name
  let fs ← files
  match fs.present false name.string with
  | .error fault =>
    if a.has 'f' && (fault = .notFound || fault = .notDirectory) then return true
    else cannot "rm" "remove" name fault
  | .ok (place, node) =>
    let isThroughLink := name.getLast? == some '/' &&
      ((fs.present false (withoutSlashes name).string).toOption.any fun x ↦ x.2.isLink)
    if (last = ['.'] || last = ['.', '.']) && recursive then
      complain "rm" ("refusing to remove '.' or '..' directory: skipping " ++ name.quoted)
      return false
    else if place.isEmpty && recursive && !a.has 'π' then do
      complain "rm" "it is dangerous to operate recursively on '/'"
      complain "rm" "use --no-preserve-root to override this failsafe"
      return false
    else if node.isDirectory && !recursive && !(a.has 'd' && node.entries.isEmpty) then
      cannot "rm" "remove" name (if a.has 'd' then .notEmpty else .isDirectory)
    else if isThroughLink then
      if a.has 'f' then return true else cannot "rm" "remove" name .notDirectory
    else return (← removeNode a asks deepest (withoutSlashes name) place) != .failed

/-- When a tool that removes files asks before it does so. -/
inductive Asking where
  | never
  /-- Before it begins, if there is much to remove. -/
  | once
  | always
  deriving DecidableEq, Repr

/-- When options ask a tool to ask; or complains. -/
def askingOf (a : Arguments) : Act (Option Asking) := do
  match a.options.reverse.find? fun o ↦ "fiIω".toList.contains o.1 with
  | some ('i', _) => return some .always
  | some ('I', _) => return some .once
  | some ('ω', []) => return some .always
  | some ('ω', word) => do
    let found ← choose "rm" "--interactive"
      [["never", "no", "none"], ["once"], ["always", "yes"]] word
    return found.map fun w ↦ if w = "never" then .never else if w = "once" then .once else .always
  | _ => return some .never

/-- Tells how to name a file whose name looks like an option, for each of the words that is one. -/
def adviseOnHyphens (words : List Chars) : Act Unit := do
  for w in words do
    if w.head? = some '-' && 1 < w.length && (← files).isThere w.string then
      warn ("Try '".toList ++ (← invocation "rm") ++
        Chars.ofString (" ./" ++ w.string ++ "' to remove the file " ++ w.quoted ++ ".\n"))

/-- Removes files, and directories with what is in them. -/
def rm : Tool := fun words ↦ do
  let known : Options :=
    ⟨"rRfidvIω?πσψ?", "",
      [("recursive", 'r'), ("force", 'f'), ("dir", 'd'), ("verbose", 'v'), ("interactive", 'ω'),
        ("no-preserve-root", 'π'), ("one-file-system", 'σ'), ("preserve-root", 'ψ')]⟩
  match Arguments.read false known words with
  | .error fault => do
    complain "rm" fault.message
    adviseOnHyphens words
    warn ("Try '".toList ++ (← invocation "rm") ++ " --help' for more information.\n".toList)
    return 1
  | .ok a => do
    match ← askingOf a with
    | none => return 1
    | some asking =>
      let recursive := a.has 'r' || a.has 'R'
      let count := a.operands.length
      let isMuch := recursive || 3 < count
      let question := "remove " ++ Text.Numeral.decimal count ++
        (if count = 1 then " argument" else " arguments") ++ if recursive then " recursively" else ""
      if a.operands.isEmpty then if a.has 'f' then return 0 else misused "rm" "missing operand"
      else if !(← confirm (asking == .once && isMuch) "rm" question) then return 0
      else each a.operands (removePath a recursive (asking == .always))

/-! ## Empty directories -/

/-- Removes an empty directory, or tells why it cannot be removed. -/
def removeEmpty (name : Chars) : Act (Except Files.Fault Unit) := do
  let fs ← files
  match fs.present false (withoutSlashes name).string with
  | .ok (place, .directory _ entries) =>
    if lastName name = ['.'] then return .error .invalid
    else if lastName name = ['.', '.'] then return .error .notEmpty
    else if place.isEmpty then return .error .busy
    else if !fs.mayChange place then return .error .denied
    else if entries.isEmpty then do
      reshape fun root ↦ root.erase place
      return .ok ()
    else return .error .notEmpty
  | .ok _ => return .error .notDirectory
  | .error fault => return .error fault

/-- Why a directory cannot be removed: a link to a directory is not followed. -/
def rmdirReason (fs : Files) (name : Chars) (fault : Files.Fault) : String :=
  if fault = .notDirectory && name.getLast? == some '/' && fs.isDirectory name.string then
    "Symbolic link not followed"
  else fault.reason

/-- Removes the directories above one that was removed as long as they are empty; fuel for one step
per directory. -/
def removeAbove (a : Arguments) : Nat → Chars → Act Bool
  | 0, _ => return true
  | fuel + 1, path =>
    let directory := (withoutSlashes path).reverse.dropWhile (· != '/')
    if directory.isEmpty then return true
    else do
      let directory := withoutSlashes directory.reverse
      tell a ("rmdir: removing directory, " ++ directory.quoted)
      match ← removeEmpty directory with
      | .ok () => removeAbove a fuel directory
      | .error fault =>
        if a.has 'ι' && fault = .notEmpty then return true
        else
          complain "rmdir" ("failed to remove directory " ++ directory.quoted ++ ": " ++
            fault.reason)
          return false

/-- Removes empty directories. -/
def rmdir : Tool := fun words ↦
  withArguments "rmdir"
    ⟨"pvι", "", [("parents", 'p'), ("verbose", 'v'), ("ignore-fail-on-non-empty", 'ι')]⟩ words
    fun a ↦
      if a.operands.isEmpty then misused "rmdir" "missing operand"
      else each a.operands fun name ↦ do
        tell a ("rmdir: removing directory, " ++ name.quoted)
        match ← removeEmpty name with
        | .ok () => if a.has 'p' then removeAbove a name.length name else return true
        | .error fault =>
          if a.has 'ι' && fault = .notEmpty then return true
          else
            let reason := rmdirReason (← files) name fault
            complain "rmdir" ("failed to remove " ++ name.quoted ++ ": " ++ reason)
            return false

end Tool
end Shell
end FirmwareLane
