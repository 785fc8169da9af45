import FirmwareLane.Shell.Tool.Facts

/-!
# Tools that make files

Tools that make directories, empty files and links.
-/

set_option autoImplicit false
namespace FirmwareLane
namespace Shell
namespace Tool

open Act

/-- Complains that something cannot be done to a file. -/
def cannot (program doing : String) (name : Chars) (fault : Files.Fault) : Act Bool := do
  complain program ("cannot " ++ doing ++ " " ++ name.quoted ++ ": " ++ fault.reason)
  return false

/-- Tells what was done if options ask for it. -/
def tell (a : Arguments) (text : String) : Act Unit := do
  if a.has 'v' then say (Chars.ofString (text ++ "\n"))

/-! ## Directories -/

/-- The beginnings of a path that name the directories above what it names. -/
def above (path : Chars) : List Chars :=
  let isEnd (n : Nat) : Bool :=
    path[n]? == some '/' && path[n - 1]? != some '/' && (path.drop n).any (· != '/')
  ((List.range path.length).filter fun n ↦ 0 < n && isEnd n).map path.take

/-- Makes a directory with permissions. -/
def makeDirectory (a : Arguments) (path : Chars) (mode : Nat) : Act (Except Files.Fault Unit) := do
  match ← withFiles (Files.makeDirectory path.string) with
  | .ok () => do
    if let .ok (place, node) := (← files).present true path.string then
      reshape fun root ↦ root.put place (node.withMode mode)
    tell a ("mkdir: created directory " ++ path.quoted)
    return .ok ()
  | .error fault => return .error fault

/-- Why the directory at a path cannot be gone through, given why it could not be made. -/
def obstruction? (fs : Files) (path : Chars) (made : Except Files.Fault Unit) :
    Option Files.Fault :=
  match fs.present true path.string, made with
  | .ok (_, node), _ =>
    if !node.isDirectory then some .notDirectory
    else if !node.allows .search then some .denied else none
  | .error .notFound, .error fault => some fault
  | .error fault, _ => some fault

/-- Makes directories that are missing above a path; the error is the first one that cannot be gone
through, and why. -/
def makeAbove (a : Arguments) (path : Chars) (mode : Nat) :
    Act (Except (Chars × Files.Fault) Unit) := do
  for directory in above path do
    let last := lastName directory
    unless last = ['.'] do
      let made ← if last = ['.', '.'] then pure (.error .taken) else makeDirectory a directory mode
      if let some fault := obstruction? (← files) directory made then
        return .error (directory, fault)
  return .ok ()

/-- Makes directories. -/
def mkdir : Tool := fun words ↦
  withArguments "mkdir"
    ⟨"pvZ", "m", [("parents", 'p'), ("mode", 'm'), ("verbose", 'v')]⟩ words fun a ↦ do
    let umask := (← process).umask
    let usual := 0o777 - (0o777 &&& umask)
    let text := a.value? 'm'
    let fail (name : Chars) (fault : Files.Fault) : Act Bool := do
      complain "mkdir" ("cannot create directory " ++ name.marked ++ ": " ++ fault.reason)
      return false
    match a.operands, text.map (newMode? true usual umask) with
    | [], _ => misused "mkdir" "missing operand"
    | _, some none => do
      complain "mkdir" ("invalid mode " ++ (text.getD []).marked)
      return 1
    | names, mode =>
      each names fun name ↦ do
        match ← if a.has 'p' then makeAbove a name (usual ||| 0o300) else pure (.ok ()) with
        | .error (directory, fault) => fail directory fault
        | .ok () =>
          match ← makeDirectory a name ((mode.getD none).getD usual) with
          | .ok () => return true
          | .error fault =>
            if a.has 'p' && fault = .taken && (← files).isDirectory name.string then return true
            else fail name fault

/-! ## Files -/

/-- Whether a text gives a point in time by digits: a month, a day, an hour and a minute, with a year
in front and seconds behind, if at all. -/
def isStamp (s : Chars) : Bool :=
  let digits := s.takeWhile Char.isDigit
  let seconds := s.drop digits.length
  let pair (n : Nat) : Nat := (number? ((digits.drop n).take 2)).getD 0
  let first := digits.length - 8
  [8, 10, 12].contains digits.length && 1 ≤ pair first && pair first ≤ 12 &&
    1 ≤ pair (first + 2) && pair (first + 2) ≤ 31 && pair (first + 4) ≤ 23 &&
    pair (first + 6) ≤ 59 &&
    (seconds.isEmpty || (seconds.head? == some '.' && seconds.length == 3 &&
      ((number? (seconds.drop 1)).any (· ≤ 60))))

/-- The words that may stand in a date. -/
def dateWords : List String :=
  ["now", "today", "yesterday", "tomorrow", "ago", "next", "last", "this", "year", "month", "week",
   "fortnight", "day", "hour", "minute", "min", "second", "sec", "utc", "gmt", "z", "t", "am", "pm",
   "january", "february", "march", "april", "may", "june", "july", "august", "september",
   "october", "november", "december", "jan", "feb", "mar", "apr", "jun", "jul", "aug", "sep",
   "sept", "oct", "nov", "dec", "sunday", "monday", "tuesday", "wednesday", "thursday", "friday",
   "saturday", "sun", "mon", "tue", "wed", "thu", "fri", "sat", "noon", "midnight"]

/-- Whether a text holds nothing but what may stand in a date. -/
def isDate (s : Chars) : Bool :=
  let spaced := s.map fun c ↦ if c.isAlpha then c.toLower else ' '
  let isWord (w : Chars) : Bool :=
    w.isEmpty || dateWords.contains w.string ||
      (w.getLast? == some 's' && dateWords.contains (Chars.string w.dropLast))
  (pieces ' ' spaced).all isWord && s.all fun c ↦ c.isAlphanum || " \t:+-/,.@".toList.contains c

/-- Makes a file that is missing. -/
def touchFile (a : Arguments) (name : Chars) : Act Bool := do
  let fs ← files
  let unset (fault : Files.Fault) : Act Bool := do
    complain "touch" ("setting times of " ++ name.quoted ++ ": " ++ fault.reason)
    return false
  if name = ['-'] then return true
  else if a.has 'h' then
    match fs.present false name.string with
    | .ok _ => return true
    | .error fault => if a.has 'c' then return true else unset fault
  else
    match fs.find true name.string with
    | .ok (.present place node) =>
      if belongsToRoot place && !node.allows .write then cannot "touch" "touch" name .denied
      else return true
    | .ok (.vacant place) => do
      if a.has 'c' then return true
      else if !fs.mayChange place then cannot "touch" "touch" name .denied
      else
        let mask := (← process).umask
        reshape fun root ↦ root.put place (.file (0o666 - (0o666 &&& mask)) [] 0)
        return true
    | .error fault =>
      if a.has 'c' && fault = .notFound then return true
      else if name.getLast? = some '/' && (fs.find true (withoutSlashes name).string).isOk then
        unset fault
      else cannot "touch" "touch" name fault

/-- Makes files that are missing. -/
def touch : Tool := fun words ↦
  withArguments "touch"
    ⟨"acfmh", "drtα",
      [("no-create", 'c'), ("date", 'd'), ("no-dereference", 'h'), ("reference", 'r'),
        ("time", 'α')]⟩ words fun a ↦ do
    let time ← match a.value? 'α' with
      | none => pure (some "")
      | some v => choose "touch" "--time" [["atime", "access", "use"], ["mtime", "modify"]] v
    let invalid (text : Chars) : Act Nat := do
      complain "touch" ("invalid date format " ++ text.marked)
      return 1
    let sources := [a.has 't', a.has 'd' || a.has 'r']
    match time, a.value? 't', a.value? 'd', a.value? 'r' with
    | none, _, _, _ => return 1
    | _, some t, d, r => do
      if !isStamp t then invalid t
      else if sources.all id || d.isSome || r.isSome then
        misused "touch" "cannot specify times from more than one source"
      else touchAll a
    | _, none, d, r => do
      let fs ← files
      match r.map fun name ↦ (name, fs.present (!a.has 'h') name.string) with
      | some (name, .error fault) => do
        complain "touch" ("failed to get attributes of " ++ name.quoted ++ ": " ++ fault.reason)
        return 1
      | _ =>
        match d with
        | some text => if isDate text then touchAll a else invalid text
        | none => touchAll a
where
  /-- Makes all the files of operands that are missing. -/
  touchAll (a : Arguments) : Act Nat :=
    if a.operands.isEmpty then misused "touch" "missing file operand"
    else each a.operands (touchFile a)

/-! ## Backups -/

/-- The ways in which a file that is replaced may be kept. -/
def backupKinds : List (List String) :=
  [["none", "off"], ["simple", "never"], ["existing", "nil"], ["numbered", "t"]]

/-- The options for keeping a file that is replaced. -/
def backupLong : List (String × Char) := [("backup", 'κ'), ("suffix", 'S')]

/-- How a file that is replaced is kept, if options ask for it at all; or complains. -/
def backupKind (program : String) (a : Arguments) : Act (Option String) := do
  match (a.options.reverse.find? fun o ↦ ['κ', 'b', 'S'].contains o.1) with
  | none => return some "none"
  | some _ =>
    match a.value? 'κ' with
    | some (c :: word) => choose program "backup type" backupKinds (c :: word)
    | _ => return some "existing"

/-- The name under which a file is kept that a path named. -/
def backupName (fs : Files) (a : Arguments) (kind : String) (path : Chars) : Chars :=
  let numbered (n : Nat) : Chars := path ++ ".~".toList ++ number n ++ "~".toList
  let count := match fs.present true (directoryName path).string with
    | .ok (_, node) => node.entries.length
    | .error _ => 0
  let taken := (List.range (count + 1)).filter fun n ↦ fs.isThere (numbered n).string
  let simple := path ++ (a.value? 'S').getD ['~']
  if kind = "numbered" || (kind = "existing" && !taken.isEmpty) then
    numbered (taken.foldl max 0 + 1)
  else simple

/-! ## Links -/

/-- The file at a place with an identity of its own, which another name may share. -/
def identified (place : Place) : Act Node := do
  let s ← get
  match s.files.root.at? place with
  | some (.file mode bytes 0) => do
    let node := Node.file mode bytes s.nextIdentity
    set { s with
      files := { s.files with root := s.files.root.put place node }
      nextIdentity := s.nextIdentity + 1 }
    return node
  | some node => return node
  | none => return Node.emptyDirectory

/-- The place that the directory of a path stands for, with the last name of the path. -/
def entryPlace (fs : Files) (path : Chars) : Place :=
  placeOf fs (directoryName path) ++ [(lastName path).string]

/-- Keeps what a path names under another name, and tells that name. -/
def keepBackup (a : Arguments) (kind : String) (path : Chars) : Act (Option Chars) := do
  let fs ← files
  match kind, fs.present false path.string with
  | "none", _ => return none
  | _, .error _ => return none
  | _, .ok (place, node) => do
    let name := backupName fs a kind path
    reshape fun root ↦ (root.erase place).put (place.dropLast ++ [(lastName name).string]) node
    return some name

/-- Makes a link; `kind` tells how a file that is replaced is kept. -/
def makeLink (a : Arguments) (kind : String) (target link : Chars) : Act Bool := do
  let fs ← files
  let isSymbolic := a.has 's'
  let named := if isSymbolic then "symbolic" else "hard"
  let fail (fault : Files.Fault) : Act Bool := do
    let arrow := if isSymbolic then (if target.isEmpty then " -> ''" else "")
      else if fault = .taken then "" else " => " ++ target.quoted
    complain "ln" ("failed to create " ++ named ++ " link " ++ link.quoted ++ arrow ++ ": " ++
      fault.reason)
    return false
  let put (place : Place) (node : Node) : Act Bool := do
    if fs.mayChange place then
      let kept ← keepBackup a kind link
      reshape fun root ↦ root.put place node
      let before := match kept with
        | some name => name.quoted ++ " ~ "
        | none => ""
      tell a (before ++ link.quoted ++ (if isSymbolic then " -> " else " => ") ++ target.quoted)
      return true
    else fail .denied
  let replaces := a.has 'f' || a.has 'i' || kind != "none"
  let isItself : Bool :=
    (fs.present true target.string).toOption.any fun (place, node) ↦
      node.isFile && place == entryPlace fs link
  let enter (node : Node) : Act Bool := do
    match fs.find false link.string with
    | .ok (.vacant place) => if target.isEmpty then fail .notFound else put place node
    | .ok (.present place old) =>
      if !replaces then fail .taken
      else if old.isDirectory then do
        complain "ln" (link.shown ++ ": cannot overwrite directory")
        return false
      else if isItself && (kind = "none" || !isSymbolic) then do
        complain "ln" (target.quoted ++ " and " ++ link.quoted ++ " are the same file")
        return false
      else if !(← confirm (a.last? "fi" == some 'i') "ln" ("replace " ++ link.quoted)) then
        return false
      else put place node
    | .error fault => fail fault
  if isSymbolic then
    let path := if a.has 'r' then
        "/".intercalate (relative (placeOf fs (directoryName link)) (placeOf fs target))
      else target.string
    enter (.link path)
  else
    match fs.present (a.last? "LP" == some 'L') target.string with
    | .error fault => do
      complain "ln" ("failed to access " ++ target.quoted ++ ": " ++ fault.reason)
      return false
    | .ok (place, node) =>
      if node.isDirectory then
        complain "ln" (target.shown ++ ": hard link not allowed for directory")
        return false
      else if node.isDevice then fail .crossDevice
      else if belongsToRoot place && !node.allows .write then fail .notPermitted
      else enter (← identified place)

/-- Makes links. -/
def ln : Tool := fun words ↦
  withArguments "ln"
    ⟨"bdFsfinrvTLPκ?", "tS",
      [("symbolic", 's'), ("force", 'f'), ("interactive", 'i'), ("no-dereference", 'n'),
        ("relative", 'r'), ("verbose", 'v'), ("no-target-directory", 'T'),
        ("target-directory", 't'), ("logical", 'L'), ("physical", 'P'), ("directory", 'd')] ++
      backupLong⟩ words fun a ↦ do
    match ← backupKind "ln" a with
    | none => return 1
    | some kind =>
      let fs ← files
      let one (target link : Chars) : Act Nat := do
        return if ← makeLink a kind target link then 0 else 1
      let inside (directory target : Chars) : Act Bool :=
        makeLink a kind target (withoutSlashes directory ++ '/' :: lastName target)
      let isDirectory (name : Chars) : Bool :=
        fs.isDirectory name.string &&
          !(a.has 'n' && (fs.present false name.string).toOption.any fun x ↦ x.2.isLink)
      if a.has 'r' && !a.has 's' then
        complain "ln" "cannot do --relative without --symbolic"
        return 1
      else
        match a.value? 't', a.operands with
        | _, [] => misused "ln" "missing file operand"
        | some directory, operands =>
          match fs.node directory.string with
          | .error fault => do
            complain "ln" ("failed to access " ++ directory.quoted ++ ": " ++ fault.reason)
            return 1
          | .ok node =>
            if node.isDirectory then each operands (inside directory)
            else
              complain "ln" ("target " ++ directory.quoted ++ " is not a directory")
              return 1
        | none, [target] =>
          if a.has 'T' then
            misused "ln" ("missing destination file operand after " ++ target.quoted)
          else one target (lastName target)
        | none, [target, link] =>
          if !a.has 'T' && isDirectory link then return if ← inside link target then 0 else 1
          else one target link
        | none, operands =>
          let last := (operands.getLast?).getD []
          if a.has 'T' then
            misused "ln" ("extra operand " ++ Chars.quoted ((operands[2]?).getD []))
          else if isDirectory last then each operands.dropLast (inside last)
          else
            let reason := match fs.node last.string with
              | .ok _ => Files.Fault.notDirectory
              | .error fault => fault
            complain "ln" ("target " ++ last.quoted ++ ": " ++ reason.reason)
            return 1

end Tool
end Shell
end FirmwareLane
