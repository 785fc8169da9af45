import FirmwareLane.Shell.Tool.Basic

/-!
# Tools that take paths apart

Tools that show the names in a path, what a symbolic link leads to, and the path without links that a
path stands for.
-/

set_option autoImplicit false
namespace FirmwareLane
namespace Shell
namespace Tool

open Act

/-! ## Names -/

/-- A path without the slashes that it ends in. -/
def withoutSlashes (s : Chars) : Chars :=
  let t := (s.reverse.dropWhile (· == '/')).reverse
  if t.isEmpty && !s.isEmpty then ['/'] else t

/-- The last name of a path. -/
def lastName (s : Chars) : Chars :=
  let t := withoutSlashes s
  if t = ['/'] then t else (t.reverse.takeWhile (· != '/')).reverse

/-- The directory that a path names something in. -/
def directoryName (s : Chars) : Chars :=
  let t := withoutSlashes s
  if t = ['/'] then t
  else if t.contains '/' then withoutSlashes (t.reverse.dropWhile (· != '/')).reverse
  else ['.']

/-- A path without an ending, unless it is the whole path or a slash. -/
def withoutEnding (ending path : Chars) : Chars :=
  if ending.length < path.length ∧ ending.isSuffixOf path ∧ path != ['/'] then
    path.take (path.length - ending.length)
  else path

/-- The character that ends what a tool shows. -/
def finishOf (a : Arguments) : Chars := if a.has 'z' then ['\x00'] else ['\n']

/-- Last names of paths, perhaps without an ending. -/
def basename : Tool := fun words ↦
  withLeadingOr 1 "basename" ⟨"az", "s", [("multiple", 'a'), ("suffix", 's'), ("zero", 'z')]⟩ words
    fun a ↦ do
      let show_ (ending : Chars) (names : List Chars) : Act Nat := do
        for name in names do say (withoutEnding ending (lastName name) ++ finishOf a)
        return 0
      match a.has 'a' || a.has 's', a.operands with
      | _, [] => misused "basename" "missing operand"
      | true, names => show_ ((a.value? 's').getD []) names
      | false, [name] => show_ [] [name]
      | false, [name, ending] => show_ ending [name]
      | false, _ :: _ :: extra :: _ => misused "basename" ("extra operand " ++ extra.marked)

/-- The directories of paths. -/
def dirname : Tool := fun words ↦
  withLeadingOr 1 "dirname" ⟨"z", "", [("zero", 'z')]⟩ words fun a ↦ do
    if a.operands.isEmpty then misused "dirname" "missing operand"
    else
      for name in a.operands do say (directoryName name ++ finishOf a)
      return 0

/-! ## Paths without links -/

/-- A place as a path. -/
def pathOf (place : Place) : Chars :=
  if place.isEmpty then ['/'] else place.flatMap fun name ↦ '/' :: Chars.ofString name

/-- The names that lead from one directory to a place. -/
def relative (start place : Place) : List String :=
  let shared := ((List.zip start place).takeWhile fun (x, y) ↦ x == y).length
  let names := List.replicate (start.length - shared) ".." ++ place.drop shared
  if names.isEmpty then ["."] else names

/-- The place that names lead to from another one, whether anything is there or not, given the place
after one more link. -/
def settleOn (root : Node) (jump : Place → List String → Place) : Place → List String → Place
  | place, [] => place
  | place, step :: rest =>
    if step = "." then settleOn root jump place rest
    else if step = ".." then settleOn root jump place.dropLast rest
    else
      match root.at? (place ++ [step]) with
      | some (.link target) =>
        jump (if Files.isAbsolute target then [] else place) (Files.steps target ++ rest)
      | _ => settleOn root jump (place ++ [step]) rest

/-- The place that names lead to from another one through so many links. -/
def settle (root : Node) : Nat → Place → List String → Place
  | 0 => settleOn root fun place _ ↦ place
  | links + 1 => settleOn root (settle root links)

/-- How much of a path has to be there. -/
inductive Presence where
  | all
  | allButLast
  | nothing
  deriving DecidableEq, Repr

/-- Where a path begins. -/
def startOf (fs : Files) (path : Chars) : Place := if path.head? = some '/' then [] else fs.here

/-- The place that a path leads to through links, or that it would lead to. -/
def placeOf (fs : Files) (path : Chars) : Place :=
  settle fs.root Files.greatestLinks (startOf fs path) (Files.steps path.string)

/-- The place that a path stands for, so much of which has to be there. -/
def canonical (fs : Files) (presence : Presence) (path : Chars) : Except Files.Fault Place :=
  if path.isEmpty then .error .notFound
  else if presence = .nothing then .ok (placeOf fs path)
  else
    let bare := withoutSlashes path
    match fs.find true bare.string with
    | .ok (.present place node) =>
      if bare != path && !node.isDirectory then .error .notDirectory else .ok place
    | .ok (.vacant place) => if presence = .all then .error .notFound else .ok place
    | .error fault => .error fault

/-- The place that the names of a path stand for if no link is followed. -/
def literalPlace (fs : Files) (presence : Presence) (path : Chars) : Except Files.Fault Place :=
  let place := (Files.steps path.string).foldl (fun place step ↦
    if step = "." then place else if step = ".." then place.dropLast else place ++ [step])
    (startOf fs path)
  if path.isEmpty then .error .notFound
  else if presence = .nothing then .ok place
  else
    match fs.find true (pathOf place).string with
    | .ok (.present _ _) => .ok place
    | .ok (.vacant _) => if presence = .all then .error .notFound else .ok place
    | .error fault => .error fault

/-- How much has to be there by options. -/
def presenceOf (a : Arguments) (usual : Presence) : Presence :=
  match a.last? "fem" with
  | some 'f' => .allButLast
  | some 'e' => .all
  | some 'm' => .nothing
  | _ => usual

/-- What links lead to. -/
def readlink : Tool := fun words ↦
  withArguments "readlink"
    ⟨"fnemqsvz", "",
      [("canonicalize", 'f'), ("canonicalize-existing", 'e'), ("canonicalize-missing", 'm'),
        ("no-newline", 'n'), ("quiet", 'q'), ("silent", 's'), ("verbose", 'v'), ("zero", 'z')]⟩
    words fun a ↦ do
      if a.operands.isEmpty then misused "readlink" "missing operand"
      else
        let isSeveral := 1 < a.operands.length
        if a.has 'n' && isSeveral then
          complain "readlink" "ignoring --no-newline with multiple arguments"
        let finish := if a.has 'n' && !isSeveral then [] else finishOf a
        each a.operands fun name ↦ do
          let fs ← files
          let found : Except Files.Fault Chars :=
            if (a.last? "fem").isSome then (canonical fs (presenceOf a .all) name).map pathOf
            else
              match fs.present false name.string with
              | .ok (_, .link target) => .ok (Chars.ofString target)
              | .ok _ => .error .invalid
              | .error fault => .error fault
          match found with
          | .ok path => do
            say (path ++ finish)
            return true
          | .error fault => do
            if a.last? "qsv" == some 'v' then complainOf "readlink" name fault
            return false

/-- The paths that names lead to without links. -/
def realpath : Tool := fun words ↦
  withArguments "realpath"
    ⟨"emLPqsz", "αβ",
      [("canonicalize-existing", 'e'), ("canonicalize-missing", 'm'), ("logical", 'L'),
        ("physical", 'P'), ("quiet", 'q'), ("strip", 's'), ("no-symlinks", 's'), ("zero", 'z'),
        ("relative-to", 'α'), ("relative-base", 'β')]⟩ words fun a ↦ do
    let presence := presenceOf a .allButLast
    let fs ← files
    let find (name : Chars) : Except Files.Fault Place :=
      match a.last? "LPs" with
      | some 's' => literalPlace fs presence name
      | some 'L' => do canonical fs presence (pathOf (← literalPlace fs presence name))
      | _ => canonical fs presence name
    let base (letter : Char) : Except (Chars × Files.Fault) (Option Place) :=
      match a.value? letter with
      | none => .ok none
      | some name =>
        match find name with
        | .error fault => .error (name, fault)
        | .ok place =>
          if presence = .all && !fs.isDirectory (pathOf place).string then
            .error (name, .notDirectory)
          else .ok (some place)
    match base 'α', base 'β' with
    | .error (name, fault), _ => do
      complainOf "realpath" name fault
      return 1
    | _, .error (name, fault) => do
      complainOf "realpath" name fault
      return 1
    | .ok start, .ok above =>
      let start := start.or above
      let isUsable := match start, above with
        | some start, some above => above.isPrefixOf start
        | _, _ => true
      let shown (place : Place) : Chars :=
        match start with
        | some start =>
          if isUsable && (above.all fun above ↦ above.isPrefixOf place) then
            Chars.ofString ("/".intercalate (relative start place))
          else pathOf place
        | none => pathOf place
      if a.operands.isEmpty then misused "realpath" "missing operand"
      else
        each a.operands fun name ↦ do
          match find name with
          | .ok place => do
            say (shown place ++ finishOf a)
            return true
          | .error fault => do
            unless a.has 'q' do complainOf "realpath" name fault
            return false

end Tool
end Shell
end FirmwareLane
