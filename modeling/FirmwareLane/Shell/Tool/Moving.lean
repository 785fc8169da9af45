import FirmwareLane.Shell.Tool.Removing

/-!
# Tools that move and copy files

Tools that give files and directories other names, and that make copies of them.
-/

set_option autoImplicit false
namespace FirmwareLane
namespace Shell
namespace Tool

open Act

/-! ## Sources and targets -/

/-- A path to something of a name in a directory. -/
def inDirectory (directory name : Chars) : Chars :=
  (if directory.getLast? = some '/' then directory else directory ++ ['/']) ++ name

/-- What a tool moves or copies, and where to. -/
structure Journey where
  sources : List Chars
  target : Chars
  /-- Whether the target is a directory that the sources go into. -/
  isInto : Bool

/-- What words ask a tool to move or copy, or the status with which it fails. -/
def journeyOf (program : String) (a : Arguments) : Act (Except Nat Journey) := do
  let (sources, target) := match a.value? 't' with
    | some t => (a.operands, t)
    | none => (a.operands.dropLast, (a.operands.getLast?).getD [])
  let isDirectory := (← files).isDirectory target.string
  let hasTarget := (a.value? 't').isSome
  if a.operands.isEmpty then return .error (← misused program "missing file operand")
  else if sources.isEmpty then
    return .error (← misused program ("missing destination file operand after " ++ target.quoted))
  else if a.has 'T' && sources.length > 1 then
    return .error (← misused program
      ("extra operand " ++ Chars.quoted ((a.operands[2]?).getD [])))
  else if (sources.length > 1 || hasTarget) && !isDirectory then
    let reason := match (← files).node target.string with
      | .ok _ => Files.Fault.notDirectory
      | .error fault => fault
    complain program ((if hasTarget then "target directory " else "target ") ++ target.quoted ++
      ": " ++ reason.reason)
    return .error 1
  else return .ok ⟨sources, target, isDirectory && !a.has 'T'⟩

/-- Where something of a name goes. -/
def Journey.goal (j : Journey) (source : Chars) : Chars :=
  if j.isInto then inDirectory j.target (lastName source) else j.target

/-- Whether two places hold the same file. -/
def areSame (fs : Files) (p q : Place) : Bool :=
  p == q ||
    match fs.root.at? p, fs.root.at? q with
    | some m, some n => m.identity != 0 && m.identity == n.identity
    | _, _ => false

/-- What is to be done where there is something already. -/
inductive Replacing where
  | always
  | asking
  | never
  deriving DecidableEq, Repr

/-- What options say about what is there already, or a complaint. -/
def replacingOf (program : String) (a : Arguments) : Act (Option Replacing) := do
  let update ← match a.value? 'υ' with
    | some (c :: word) => choose program "--update" [["all"], ["none"], ["older"]] (c :: word)
    | _ => pure (some "all")
  match update, a.last? "fin" with
  | none, _ => return none
  | some "none", _ => return some .never
  | _, some 'n' => return some .never
  | _, some 'i' => return some .asking
  | _, _ => return some .always

/-- The options that several tools have which move or copy files. -/
def journeyLong : List (String × Char) :=
  [("force", 'f'), ("no-clobber", 'n'), ("interactive", 'i'), ("verbose", 'v'),
   ("target-directory", 't'), ("no-target-directory", 'T'), ("update", 'υ'),
   ("strip-trailing-slashes", 'τ')] ++ backupLong

/-- Permissions in a question. -/
def modeInQuestion (node : Node) : String :=
  Chars.string (Text.Numeral.writePadded 8 4 node.mode) ++ ", " ++ (permissionText node).string

/-- The words that tell how something went to another place. -/
def journeyText (source goal : Chars) (kept : Option Chars) : String :=
  let backup := match kept with
    | some name => " (backup: " ++ name.quoted ++ ")"
    | none => ""
  source.quoted ++ " -> " ++ goal.quoted ++ backup

/-! ## Moving -/

/-- Moves a file or a directory; `kind` tells how a file that is replaced is kept. -/
def move (a : Arguments) (replacing : Replacing) (kind : String) (source goal : Chars) :
    Act Bool := do
  let fs ← files
  let fail (fault : Files.Fault) : Act Bool := do
    complain "mv" ("cannot move " ++ source.quoted ++ " to " ++ goal.quoted ++ ": " ++ fault.reason)
    return false
  let refuse (text : String) : Act Bool := do
    complain "mv" text
    return false
  match fs.present false source.string with
  | .error fault => cannot "mv" "stat" source fault
  | .ok (origin, node) =>
    match fs.find false (if node.isDirectory then withoutSlashes goal else goal).string with
    | .error fault =>
      let isMissing := (fs.find false (withoutSlashes goal).string).toBool
      fail (if fault = .notFound && isMissing then .notDirectory else fault)
    | .ok found =>
      let (place, old) := match found with
        | .present place old => (place, some old)
        | .vacant place => (place, none)
      let go : Act Bool := do
        if !fs.mayChange origin || !fs.mayChange place then fail .denied
        else
          let kept ← if old.isSome then keepBackup a kind goal else pure none
          reshape fun root ↦ (root.erase origin).put place node
          tell a ("renamed " ++ journeyText source goal kept)
          return true
      let last := lastName source
      let isThroughLink := source.getLast? == some '/' &&
        ((fs.present false (withoutSlashes source).string).toOption.any fun x ↦ x.2.isLink)
      if areSame fs origin place then
        refuse (source.quoted ++ " and " ++ goal.quoted ++ " are the same file")
      else if node.isLink && old.any (·.isFile) &&
          ((fs.present true source.string).toOption.any fun x ↦ areSame fs x.1 place) then
        refuse (source.quoted ++ " and " ++ goal.quoted ++ " are the same file")
      else if replacing = .never && old.isSome then
        if a.has 'υ' then return true else refuse ("not replacing " ++ goal.quoted)
      else if origin.isPrefixOf place && node.isDirectory && last != ['.'] && last != ['.', '.'] then
        refuse ("cannot move " ++ source.quoted ++ " to a subdirectory of itself, " ++ goal.quoted)
      else if last = ['.'] || last = ['.', '.'] then fail .busy
      else if isThroughLink then fail .notDirectory
      else if !node.isDirectory && goal.getLast? == some '/' && old.isNone then fail .notDirectory
      else
        match old with
        | some old =>
          if old.isDirectory && !node.isDirectory then
            refuse ("cannot overwrite directory " ++ goal.quoted ++ " with non-directory")
          else if !old.isDirectory && node.isDirectory && kind = "none" then
            refuse ("cannot overwrite non-directory " ++ goal.quoted ++ " with directory " ++
              source.quoted)
          else
            let question := if old.allows .write then "overwrite " ++ goal.quoted
              else "replace " ++ goal.quoted ++ ", overriding mode " ++
                Chars.string (Text.Numeral.writePadded 8 4 old.mode) ++ " (" ++
                (permissionText old).string ++ ")"
            if !(← confirm (replacing == .asking) "mv" question) then return false
            else if !old.entries.isEmpty then
              refuse ("cannot overwrite " ++ goal.quoted ++ ": " ++ Files.Fault.notEmpty.reason)
            else go
        | none => go

/-- Goes through the sources of a tool; a goal that was made for one is not replaced by another. -/
def eachSource (program : String) (j : Journey) (act : Chars → Chars → Act Bool) : Act Nat := do
  let mut made : List Place := []
  let mut status := 0
  for source in j.sources do
    let goal := j.goal source
    let fs ← files
    let place := entryPlace fs goal
    let isDirectory := (fs.present false source.string).toOption.any fun x ↦ x.2.isDirectory
    if made.contains place && !isDirectory && fs.isThere source.string && fs.isFile goal.string then
      complain program ("will not overwrite just-created " ++ goal.quoted ++ " with " ++
        source.quoted)
      status := 1
    else
      let fine ← act source goal
      if fine then made := place :: made else status := 1
  return status

/-- Moves files and directories. -/
def mv : Tool := fun words ↦
  withArguments "mv" ⟨"bfinvTuZκ?υ?τ", "tS", journeyLong⟩ words fun a ↦ do
    match ← replacingOf "mv" a, ← backupKind "mv" a with
    | some replacing, some kind =>
      match ← journeyOf "mv" a with
      | .error status => return status
      | .ok j =>
        eachSource "mv" j fun source goal ↦
          move a replacing kind (if a.has 'τ' then withoutSlashes source else source) goal
    | _, _ => return 1

/-! ## Reproduction -/

/-- How a tool copies. -/
structure Reproduction where
  arguments : Arguments
  recursive : Bool
  /-- Whether links below the sources are followed. -/
  followsLinks : Bool
  /-- Whether copies keep permissions. -/
  keepsMode : Bool
  replacing : Replacing
  /-- How a file that is replaced is kept. -/
  kind : String
  /-- The argument that is copied. -/
  source : Chars
  /-- Where the argument is copied to. -/
  goal : Chars

/-- Says why something is not copied. -/
def refuseCopy (text : String) : Act Bool := do
  complain "cp" text
  return false

/-- Tells what was copied. -/
def Reproduction.tellOf (c : Reproduction) (source goal : Chars) (kept : Option Chars) : Act Unit :=
  tell c.arguments (journeyText source goal kept)

/-- Makes a copy of a file or a link at a path where nothing is. -/
def copyNew (c : Reproduction) (source goal : Chars) (place : Place) (node : Node)
    (kept : Option Chars) : Act Bool := do
  let fs ← files
  let umask := (← process).umask
  let mode := match node with
    | .file mode _ _ => if c.keepsMode then mode else (mode &&& 0o777) - (mode &&& umask)
    | _ => 0o666 - (0o666 &&& umask)
  if !fs.mayChange place then
    cannot "cp" (if node.isLink then "create symbolic link" else "create regular file") goal .denied
  else
    reshape fun root ↦ root.put place (match node with
      | .link target => .link target
      | node => .file mode (if c.arguments.has 'α' then [] else node.bytes) 0)
    c.tellOf source goal kept
    return true

/-- Makes a file that is there a copy of another one. -/
def copyOver (c : Reproduction) (source goal : Chars) (place : Place) (old node : Node) : Act Bool := do
  let fs ← files
  let a := c.arguments
  let question := if old.allows .write then "overwrite " ++ goal.quoted
    else if a.has 'f' then
      "replace " ++ goal.quoted ++ ", overriding mode " ++
        Chars.string (Text.Numeral.writePadded 8 4 old.mode) ++ " (" ++
        (permissionText old).string ++ ")"
    else "unwritable " ++ goal.quoted ++ " (mode " ++ modeInQuestion old ++ "); try anyway"
  if !(← confirm (c.replacing == .asking) "cp" question) then return false
  else
    let kept ← keepBackup a c.kind goal
    let isRemoved := kept.isSome || a.has 'ρ' || node.isLink || (a.has 'f' && !old.allows .write)
    if isRemoved && fs.mayChange place then
      reshape fun root ↦ root.erase place
      copyNew c source goal place node kept
    else if !old.allows .write then cannot "cp" "create regular file" goal .denied
    else
      unless a.has 'α' do
        reshape fun root ↦ root.alterFile place fun n ↦
          .file (if c.keepsMode then node.mode else n.mode) node.bytes n.identity
      c.tellOf source goal none
      return true

/-- Copies a file or a link to a path. -/
def copyFile (c : Reproduction) (source goal : Chars) (node : Node) : Act Bool := do
  let fs ← files
  match fs.find (!node.isLink) goal.string with
  | .error fault =>
    let isEnd := goal.getLast? = some '/' && (fs.find true (withoutSlashes goal).string).isOk
    cannot "cp" "create regular file" goal (if isEnd then .notDirectory else fault)
  | .ok (.vacant place) =>
    if goal.getLast? = some '/' then cannot "cp" "create regular file" goal .notDirectory
    else if (fs.present false goal.string).isOk && !node.isLink then
      if c.arguments.has 'ρ' then
        let place := entryPlace fs goal
        reshape fun root ↦ root.erase place
        copyNew c source goal place node none
      else refuseCopy ("not writing through dangling symlink " ++ goal.quoted)
    else copyNew c source goal place node none
  | .ok (.present place old) =>
    match old with
    | .directory _ _ =>
      refuseCopy ("cannot overwrite directory " ++ goal.quoted ++ " with non-directory")
    | .device _ => do
      c.tellOf source goal none
      return true
    | old => copyOver c source goal place old node

/-- Makes a link at a path instead of a copy. -/
def linkInstead (c : Reproduction) (source goal : Chars) (place : Place) (node : Node) : Act Bool := do
  let fs ← files
  let isHard := c.arguments.has 'l'
  let doing := if isHard then "create hard link" else "create symbolic link"
  let isHere := source.head? == some '/' || entryPlace fs goal == fs.here ++ [(lastName goal).string]
  if !isHard && !isHere then
    refuseCopy (goal.shown ++ ": can make relative symbolic links only in current directory")
  else
    match fs.find false goal.string with
    | .ok found =>
      let (goalPlace, isTaken) := match found with
        | .present p _ => (p, true)
        | .vacant p => (p, false)
      if isTaken && !c.arguments.has 'f' && !c.arguments.has 'ρ' then
        cannot "cp" doing goal .taken
      else if !fs.mayChange goalPlace then cannot "cp" doing goal .denied
      else
        let made ← if isHard && node.isFile then identified place
          else pure (if isHard then node else .link source.string)
        reshape fun root ↦ root.put goalPlace made
        c.tellOf source goal none
        return true
    | .error fault => cannot "cp" doing goal fault

/-- Copies a file that is no directory. -/
def copyPlain (c : Reproduction) (source goal : Chars) (place : Place) (node : Node) : Act Bool := do
  let fs ← files
  let a := c.arguments
  let isSame := match fs.find true goal.string with
    | .ok (.present other _) => areSame fs place other
    | _ => false
  if isSame && !a.has 'l' then
    refuseCopy (source.quoted ++ " and " ++ goal.quoted ++ " are the same file")
  else if c.replacing = .never && (fs.present false goal.string).isOk then return true
  else if a.has 'l' || a.has 's' then linkInstead c source goal place node
  else if !node.isLink && !node.allows .read then
    refuseCopy ("cannot open " ++ source.quoted ++ " for reading: " ++ Files.Fault.denied.reason)
  else if (a.value? 'φ').any fun word ↦ word.string ∉ ["auto", "never"] then do
    let _ ← copyFile { c with arguments := ⟨[('α', [])], []⟩ } source goal node
    refuseCopy ("failed to clone " ++ goal.quoted ++ " from " ++ source.quoted ++
      ": Operation not supported")
  else copyFile c source goal node

/-- What became of a copy. -/
structure Copied where
  isFine : Bool
  /-- The first directory that was made for an argument. -/
  made : Option Place
  /-- Whether the copy led into itself, so that nothing more is copied. -/
  isOver : Bool

/-- Copies a file, or a directory with what is in it.  The first directory that is made for an argument
is not copied into itself; `made` is its place.  Fuel bounds how deep directories stand in each
other. -/
def copyNode (c : Reproduction) : Nat → Bool → Option Place → Chars → Chars → Act Copied
  | 0, _, made, _, _ => return ⟨false, made, false⟩
  | fuel + 1, follows, made, source, goal => do
    let fs ← files
    let ending (act : Act Bool) : Act Copied := return ⟨← act, made, false⟩
    match fs.present follows source.string with
    | .error fault => ending (cannot "cp" "stat" source fault)
    | .ok (origin, .directory mode entries) =>
      let node := Node.directory mode entries
      let umask := (← process).umask
      let kept := if c.keepsMode then mode else (mode &&& 0o777) - (mode &&& umask)
      let fill (place : Place) (made : Option Place) : Act Copied := do
        if !node.allows .read then
          return ⟨← cannot "cp" "access" source .denied, made, false⟩
        let names := (((← files).root.at? origin).elim [] Node.entries).map (·.1)
        let leadsOn (name : String) : Bool := (origin ++ [name]).isPrefixOf place
        let mut copied : Copied := ⟨true, made, false⟩
        for name in names.filter (!leadsOn ·) ++ names.filter leadsOn do
          unless copied.isOver do
            let below (path : Chars) : Chars := inDirectory path (Chars.ofString name)
            let next ← copyNode c fuel c.followsLinks copied.made (below source) (below goal)
            copied := { next with isFine := copied.isFine && next.isFine }
        return copied
      if !c.recursive then
        ending (refuseCopy ("-r not specified; omitting directory " ++ source.quoted))
      else if made = some origin then
        complain "cp" ("cannot copy a directory, " ++ c.source.quoted ++ ", into itself, " ++
          c.goal.quoted)
        return ⟨false, made, true⟩
      else
        match fs.find true (withoutSlashes goal).string with
        | .error fault => ending (cannot "cp" "create directory" goal fault)
        | .ok (.vacant place) =>
          if !fs.mayChange place then ending (cannot "cp" "create directory" goal .denied)
          else
            reshape fun root ↦ root.put place (Node.emptyDirectory.withMode (kept ||| 0o700))
            c.tellOf source goal none
            let copied ← fill place (made.or (some place))
            reshape fun root ↦ root.alter (Option.map (Node.withMode kept)) place
            return copied
        | .ok (.present place old) =>
          if !old.isDirectory then
            ending (refuseCopy ("cannot overwrite non-directory " ++ goal.quoted ++
              " with directory " ++ source.quoted))
          else if place = origin then
            ending (refuseCopy (source.quoted ++ " and " ++ goal.quoted ++ " are the same file"))
          else fill place made
    | .ok (origin, node) => ending (copyPlain c source goal origin node)

/-- Copies what an argument names. -/
def copyArgument (c : Reproduction) (follows : Bool) (source goal : Chars) : Act Bool := do
  return (← copyNode { c with source, goal } deepest follows none source goal).isFine

/-- Makes the directories above a copy that keeps the path of its source, with the permissions of
those above the source.  Tells whether they are there. -/
def copyAbove (a : Arguments) (target source : Chars) : Act Bool := do
  for directory in above source do
    let fs ← files
    let goal := inDirectory target directory
    match fs.present true directory.string with
    | .error fault =>
      complain "cp" ("failed to get attributes of " ++ directory.quoted ++ ": " ++ fault.reason)
      return false
    | .ok (_, node) =>
      if let .ok (.vacant place) := fs.find true goal.string then
        reshape fun root ↦ root.put place (Node.emptyDirectory.withMode (node.mode ||| 0o200))
        tell a (directory.string ++ " -> " ++ goal.string)
  return true

/-- The kinds of what a copy may keep. -/
def keptKinds : List (List String) :=
  [["mode"], ["timestamps"], ["ownership"], ["links"], ["context"], ["xattr"], ["all"]]

/-- Complains about values of options that are none of those there are; tells whether all are. -/
def areCopyValuesFine (a : Arguments) : Act Bool := do
  for (letter, value) in a.options do
    let check (option : String) (groups : List (List String)) : Act Bool := do
      return (← choose "cp" option groups value).isSome
    let isGiven := !value.isEmpty
    if letter = 'φ' && isGiven then
      unless ← check "--reflink" [["auto"], ["always"], ["never"]] do return false
    if letter = 'σ' then
      unless ← check "--sparse" [["never"], ["auto"], ["always"]] do return false
    if letter = 'κ' && isGiven then
      unless ← check "backup type" backupKinds do return false
    if letter = 'μ' || (letter = 'ν' && isGiven) then
      for word in pieces ',' value do
        let option := if letter = 'μ' then "--no-preserve" else "--preserve"
        if (← choose "cp" option keptKinds word).isNone then return false
  return true

/-- The options of the tool that copies. -/
def copyOptions : Options :=
  ⟨"rRabfpPLHdinvTuxslZκ?υ?τακρφ?ν?π", "tSμσ",
    [("recursive", 'r'), ("archive", 'a'), ("dereference", 'L'), ("no-dereference", 'P'),
      ("link", 'l'), ("symbolic-link", 's'), ("one-file-system", 'x'), ("parents", 'π'),
      ("attributes-only", 'α'), ("remove-destination", 'ρ'), ("reflink", 'φ'), ("sparse", 'σ'),
      ("preserve", 'ν'), ("no-preserve", 'μ'), ("copy-contents", 'τ')] ++ journeyLong⟩

/-- Copies files, and directories with what is in them. -/
def cp : Tool := fun words ↦
  withArguments "cp" copyOptions words fun a ↦ do
    if !(← areCopyValuesFine a) then return 1
    else
      match ← replacingOf "cp" a, ← backupKind "cp" a with
      | some replacing, some kind =>
        if a.has 'n' then
          complain "cp" ("warning: behavior of -n is non-portable and may change in future; " ++
            "use --update=none instead")
        let recursive := a.has 'r' || a.has 'R' || a.has 'a'
        let keepsMode := a.has 'p' || a.has 'a' ||
          ((a.value? 'ν').any fun v ↦
            v.isEmpty || (pieces ',' v).any fun w ↦ w == "mode".toList || w == "all".toList)
        let (follows, followsBelow) := match a.last? "LPdaH" with
          | some 'L' => (true, true)
          | some 'H' => (true, false)
          | some _ => (false, false)
          | none => (!recursive, !recursive)
        let c : Reproduction := 
            ⟨a, recursive, followsBelow, keepsMode, replacing, kind, [], []⟩
        match ← journeyOf "cp" a with
        | .error status => return status
        | .ok j =>
          if a.has 'π' && !j.isInto then
            misused "cp" "with --parents, the destination must be a directory"
          else
            let mut seen : List Place := []
            let mut once : List Chars := []
            for source in j.sources do
              let fs ← files
              match fs.present false source.string with
              | .ok (place, node) =>
                if j.isInto && seen.contains place then
                  let what := if node.isDirectory then "directory" else "file"
                  if node.isDirectory && !recursive then pure ()
                  else complain "cp" ("warning: source " ++ what ++ " " ++ source.quoted ++
                    " specified more than once")
                  if node.isDirectory && !recursive then once := once ++ [source]
                else
                  seen := place :: seen
                  once := once ++ [source]
              | .error _ => once := once ++ [source]
            eachSource "cp" { j with sources := once } fun source goal ↦ do
              if !a.has 'π' then copyArgument c follows source goal
              else if ← copyAbove a j.target source then
                copyArgument c follows source (inDirectory j.target source)
              else return false
      | _, _ => return 1

end Tool
end Shell
end FirmwareLane
