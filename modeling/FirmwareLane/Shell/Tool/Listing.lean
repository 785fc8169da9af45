import FirmwareLane.Shell.Pattern
import FirmwareLane.Shell.Tool.Moving
import FirmwareLane.Shell.Tool.Order

/-!
# The tool that lists directories

It lists files and the entries of directories in an order, by their names alone or with facts about
them, below each other or in columns.
-/

set_option autoImplicit false
namespace FirmwareLane
namespace Shell
namespace Tool

open Act

/-! ## Styles -/

/-- How entries are laid out. -/
inductive Layout where
  /-- One to a line. -/
  | single
  /-- One to a line, with facts. -/
  | long
  | commas
  /-- In columns, read from top to bottom. -/
  | vertical
  /-- In columns, read from left to right. -/
  | across
  deriving DecidableEq, Repr

/-- What entries are sorted by. -/
inductive Sorting where
  | name
  | size
  | extension
  | version
  | none
  | width
  deriving DecidableEq, Repr

/-- Which kinds of entries have a mark behind their names. -/
inductive Marking where
  | none
  | directories
  | kinds
  /-- What can be run has a mark too. -/
  | all
  deriving DecidableEq, Repr

/-- How a listing looks. -/
structure Style where
  arguments : Arguments
  layout : Layout
  sorting : Sorting
  marking : Marking
  /-- The name of the way in which names are put between marks. -/
  quoting : String
  width : Nat
  tab : Nat
  /-- The number of bytes that sizes are counted in; zero for the greatest unit that fits. -/
  unit : Nat
  /-- The patterns of entries that are left out, and of those that are unless all are asked for. -/
  ignored : List Chars
  hidden : List Chars

/-- What is listed: a name, with the node at a place if it can be seen. -/
structure Entry where
  name : Chars
  place : Place
  node : Node
  isSeen : Bool

namespace Style

/-- Whether an option is given. -/
def has (s : Style) (letter : Char) : Bool := s.arguments.has letter

/-- Whether facts about every entry are asked for. -/
def needsFacts (s : Style) : Bool :=
  s.layout = .long || s.has 's' || s.has 'i' || s.sorting = .size

/-! ## Names -/

/-- A name as it is put into the listing. -/
def quoted (s : Style) (name : Chars) : Chars :=
  match s.quoting with
  | "c" => '"' :: Quotation.escaped ['"'] name ++ ['"']
  | "clocale" => '"' :: Quotation.escaped ['"'] name ++ ['"']
  | "locale" => '\'' :: Quotation.escaped ['\''] name ++ ['\'']
  | "escape" => Quotation.escaped [' '] name
  | "shell-escape" => if Quotation.isOdd name then Quotation.word name else name
  | "shell-escape-always" => Quotation.word name
  | "shell" => if (name.filter Quotation.isPrintable).any Quotation.isSpecial ||
      name.contains '\t' || name.contains '\n' || Quotation.isOdd (name.take 1) then plainWord name
    else name
  | "shell-always" => plainWord name
  | _ =>
    if s.arguments.last? "qω" == some 'q' then
      name.map fun c ↦ if Quotation.isPrintable c then c else '?'
    else name
where
  /-- A word between marks whose odd characters stand for themselves. -/
  plainWord (name : Chars) : Chars :=
    if name.contains '\'' && Quotation.isPlainApart name then '"' :: name ++ ['"']
    else '\'' :: (name.flatMap fun c ↦ if c = '\'' then "'\\''".toList else [c]) ++ ['\'']

/-- The mark of a kind of node. -/
def mark (s : Style) (n : Node) : Chars :=
  match s.marking, n with
  | .none, _ => []
  | _, .directory _ _ => ['/']
  | .directories, _ => []
  | _, .link _ => ['@']
  | .all, .file m _ _ => if m &&& 0o111 != 0 then ['*'] else []
  | _, _ => []

/-! ## Order -/

/-- What follows the last point in a name. -/
def extension (name : Chars) : Chars :=
  if name.contains '.' then '.' :: (name.reverse.takeWhile (· != '.')).reverse else []

/-- Entries in their order. -/
def sorted (s : Style) (entries : List Entry) : List Entry :=
  let byName := entries.mergeSort fun x y ↦ !decide (y.name < x.name)
  let order := match s.sorting with
    | .none => entries
    | .name => byName
    | .size => byName.mergeSort fun x y ↦ sizeOf y.node ≤ sizeOf x.node
    | .extension => byName.mergeSort fun x y ↦ !decide (extension y.name < extension x.name)
    | .version => byName.mergeSort fun x y ↦ compareVersions x.name y.name != .gt
    | .width => byName.mergeSort fun x y ↦ (s.quoted x.name).length ≤ (s.quoted y.name).length
  let order := if s.has 'r' then order.reverse else order
  if s.has 'γ' then
    let (directories, others) := order.partition fun e ↦ e.node.isDirectory
    directories ++ others
  else order

/-- Whether a name matches a pattern. -/
def isLike (name pattern : Chars) : Bool :=
  globMatches (glob (Marked.ofChars false pattern)) name &&
    !(name.head? == some '.' && pattern.head? != some '.')

/-- Whether an entry of a name is listed. -/
def isListed (s : Style) (name : Chars) : Bool :=
  let showsAll := s.arguments.last? "aAf"
  let isHidden := match showsAll with
    | some 'A' => name = ['.'] || name = ['.', '.']
    | some _ => false
    | none => name.head? == some '.' || s.hidden.any (isLike name)
  !isHidden && !(s.has 'B' && name.getLast? == some '~') && !(s.ignored.any (isLike name))

/-! ## Sizes -/

/-- A number of bytes in the greatest unit that fits, rounded up; a small number has a digit behind
the point. -/
def inGreatestUnit (base : Nat) : Nat → List Char → Nat → Nat → Chars
  | 0, _, _, n => number n
  | _, [], _, n => number n
  | fuel + 1, letter :: letters, scale, n =>
    let scale := scale * base
    let tenths := (10 * n + scale - 1) / scale
    let whole := (n + scale - 1) / scale
    if tenths < 100 then number (tenths / 10) ++ '.' :: number (tenths % 10) ++ [letter]
    else if whole < base then number whole ++ [letter]
    else inGreatestUnit base fuel letters scale n

/-- A number of bytes as it is shown; `usual` is the unit if none is asked for. -/
def amount (s : Style) (usual n : Nat) : Chars :=
  if s.has 'σ' && s.arguments.last? "hσ" == some 'σ' then
    if n < 1000 then number n else inGreatestUnit 1000 6 "kMGTPE".toList 1 n
  else if s.has 'h' then
    if n < 1024 then number n else inGreatestUnit 1024 6 "KMGTPE".toList 1 n
  else
    let unit := if s.unit = 0 then usual else s.unit
    number ((n + unit - 1) / unit)

/-- The number of bytes of the blocks of an entry. -/
def blockBytes (e : Entry) : Nat := 512 * blocksOf e.node

/-! ## Lines -/

/-- An entry with what stands before its name, given the width of its number of blocks. -/
def frilled (s : Style) (blockWidth : Nat) (e : Entry) : Chars :=
  let blocks := if s.has 's' then
      paddedText blockWidth (if e.isSeen then s.amount 1024 (blockBytes e) else ['?']) ++ [' ']
    else []
  let context := if s.has 'Z' && s.layout != .long then "? ".toList else []
  let target := match e.node with
    | .link t => if s.layout = .long && e.isSeen then
        " -> ".toList ++ s.quoted (Chars.ofString t) else []
    | _ => []
  let mark := if target.isEmpty then s.mark (if e.isSeen then displayed e.place e.node else e.node)
    else []
  blocks ++ context ++ s.quoted e.name ++ mark ++ target

/-- The longest of some texts. -/
def widest (texts : List Chars) : Nat := texts.foldl (fun w t ↦ max w t.length) 0

/-- The mark behind the target of a link. -/
def targetMark (s : Style) (fs : Files) (e : Entry) : Chars :=
  match e.node, s.layout with
  | .link _, .long =>
    match fs.present true (pathOf e.place).string with
    | .ok (place, n) => s.mark (displayed place n)
    | .error _ => []
  | _, _ => []

/-- Entries with facts, one to a line. -/
def longLines (s : Style) (fs : Files) (entries : List Entry) (names : List Chars) : List Chars :=
  let column (fact : Entry → Chars) : List Chars :=
    entries.map fun e ↦ if e.isSeen then fact e else ['?']
  let toRight (texts : List Chars) : List Chars := texts.map (paddedText (widest texts))
  let toLeft (texts : List Chars) : List Chars :=
    texts.map fun t ↦ t ++ List.replicate (widest texts - t.length) ' '
  let owner (o : Owner) : Chars := if s.has 'n' then number o.2 else o.1.toList
  let user (e : Entry) : Chars := owner (ownersAt e.place).1
  let group (e : Entry) : Chars := owner (ownersAt e.place).2
  let size (e : Entry) : Chars := match e.node with
    | .device d => "1, ".toList ++ number (minorOf d)
    | n => s.amount 1 (sizeOf n)
  let modes := entries.map fun e ↦
    if e.isSeen then modeText (displayed e.place e.node)
    else (modeText e.node).take 1 ++ "?????????".toList
  let dates := entries.map fun e ↦
    if e.isSeen then "Jan  1 00:00".toList else paddedText 12 ['?']
  let toSide := if s.has 'n' then toRight else toLeft
  let columns := [modes, toRight (column fun e ↦ number (namesOf fs.root e.node))] ++
    (if s.has 'g' then [] else [toSide (column user)]) ++
    (if s.has 'o' || s.has 'G' then [] else [toSide (column group)]) ++
    (if s.has 'α' then [toSide (column user)] else []) ++
    [toRight (column size), dates, names]
  entries.zipIdx.map fun (_, i) ↦ joinWith [' '] (columns.map fun texts ↦ texts[i]?.getD [])

/-! ## Columns -/

/-- Blanks from one column to another, with tabs where they reach. -/
def indentation (tab : Nat) : Nat → Nat → Nat → Chars
  | 0, _, _ => []
  | fuel + 1, start, goal =>
    if goal ≤ start then []
    else if tab != 0 && (start + 1) / tab < goal / tab then
      '\t' :: indentation tab fuel (start + tab - start % tab) goal
    else ' ' :: indentation tab fuel (start + 1) goal

/-- The column that an entry stands in, of so many. -/
def columnIndex (layout : Layout) (count columns i : Nat) : Nat :=
  if layout = .vertical then i / ((count + columns - 1) / columns) else i % columns

/-- The widths of so many columns. -/
def columnWidths (layout : Layout) (lengths : List Nat) (columns : Nat) : List Nat :=
  let count := lengths.length
  (List.range columns).map fun k ↦
    lengths.zipIdx.foldl (fun w (length, i) ↦
      if columnIndex layout count columns i = k then
        max w (if k + 1 = columns then length else length + 2)
      else w) 3

/-- The widths of as many columns as fit. -/
def fittingWidths (s : Style) (lengths : List Nat) : List Nat :=
  let most := min lengths.length (s.width / 3 + if s.width % 3 = 0 then 0 else 1)
  let fits (columns : Nat) : Bool :=
    columns ≤ 1 || (columnWidths s.layout lengths columns).foldl (· + ·) 0 < s.width
  let columns := ((List.range (most + 1)).reverse.find? fun n ↦ 0 < n && fits n).getD 1
  columnWidths s.layout lengths columns

/-- A row of columns. -/
def row (s : Style) (widths : List Nat) (texts : List Chars) : Chars :=
  let step (done : Chars × Nat × Nat) (x : Chars × Nat) : Chars × Nat × Nat :=
    let (line, start, stop) := done
    let (text, width) := x
    let blanks := indentation s.tab (start + 1) stop start
    (line ++ blanks ++ text, start + width, start + text.length)
  ((texts.zip widths).foldl step ([], 0, 0)).1

/-- Texts in columns. -/
def inColumns (s : Style) (texts : List Chars) : List Chars :=
  let widths := s.fittingWidths (texts.map List.length)
  let columns := widths.length
  let array := texts.toArray
  let rows := (texts.length + columns - 1) / columns
  (List.range rows).map fun i ↦
    let chosen := (List.range columns).filterMap fun k ↦
      array[if s.layout = .vertical then i + k * rows else i * columns + k]?
    s.row widths chosen

/-- Texts between commas, in lines that are not too long. -/
def betweenCommas (s : Style) (texts : List Chars) : Chars :=
  let step (done : Chars × Nat) (text : Chars) : Chars × Nat :=
    let (line, position) := done
    let length := text.length
    if line.isEmpty then (text, length)
    else if s.width = 0 || position + length + 2 < s.width then
      (line ++ ", ".toList ++ text, position + length + 2)
    else (line ++ ",\n".toList ++ text, length)
  (texts.foldl step ([], 0)).1

/-- The text of a listing. -/
def listing (s : Style) (fs : Files) (entries : List Entry) : Chars :=
  let finish : Chars := if s.has 'ζ' then ['\x00'] else ['\n']
  let blockWidth := widest (entries.map fun e ↦
    if e.isSeen then s.amount 1024 (blockBytes e) else ['?'])
  let blockWidth := if s.layout = .commas then 0 else blockWidth
  let texts := entries.map fun e ↦ s.frilled blockWidth e ++ s.targetMark fs e
  let lines := match s.layout with
    | .single => texts
    | .long => s.longLines fs entries texts
    | .commas => [s.betweenCommas texts]
    | _ => if s.width = 0 then [joinWith "  ".toList texts] else s.inColumns texts
  if entries.isEmpty then [] else lines.flatMap (· ++ finish)

/-! ## Directories -/

/-- The entries of a directory at a place. -/
def entriesOf (s : Style) (root : Node) (place : Place) (n : Node) : List Entry :=
  let isSeen := n.allows .search
  let own := n.entries.map fun (name, child) ↦
    ⟨Chars.ofString name, place ++ [name], child, isSeen⟩
  let own : List Entry := if s.sorting = .none then own.reverse else own
  let above := (root.at? place.dropLast).getD n
  let all := if s.has 'a' || s.has 'f' then
      ⟨['.'], place, n, isSeen⟩ :: ⟨['.', '.'], place.dropLast, above, isSeen⟩ :: own
    else own
  let seen (e : Entry) : Entry :=
    if s.has 'L' && e.node.isLink then
      match root.at? (settle root Files.greatestLinks place [e.name.string]) with
      | some target => { e with node := target }
      | none => e
    else e
  s.sorted ((all.filter fun e ↦ s.isListed e.name).map seen)

/-- Whether an entry has to be looked at and cannot be. -/
def isMissed (s : Style) (e : Entry) : Bool :=
  !e.isSeen && (s.needsFacts || (s.marking = .all && e.node.isFile))

/-- Lists the entries of a directory and, if that is wanted, of those below it; tells whether all
could be listed.  Fuel bounds how deep directories stand in each other. -/
def directory (s : Style) (heading : Bool) : Nat → Bool → Chars → Place → Node → Act Bool
  | 0, _, _, _, _ => return true
  | fuel + 1, first, path, place, n => do
    if !n.allows .read then
      complain "ls" ("cannot open directory " ++ path.quoted ++ ": " ++ Files.Fault.denied.reason)
      return false
    else
      let fs ← files
      let entries := s.entriesOf fs.root place n
      let mut fine := true
      for e in entries do
        if s.isMissed e then
          complain "ls" ("cannot access " ++ (inDirectory path e.name).quoted ++ ": " ++
            Files.Fault.denied.reason)
          fine := false
      let entries := entries.map fun e ↦ { e with isSeen := e.isSeen || !s.needsFacts }
      if heading then say ((if first then [] else ['\n']) ++ s.quoted path ++ ":\n".toList)
      if s.layout = .long || s.has 's' then
        let blocks := entries.foldl (fun sum e ↦ sum + if e.isSeen then blockBytes e else 0) 0
        say ("total ".toList ++ s.amount 1024 blocks ++ ['\n'])
      say (s.listing fs entries)
      if s.has 'R' then
        for e in entries do
          if e.node.isDirectory && e.name != ['.'] && e.name != ['.', '.'] then
            let below := inDirectory path e.name
            unless ← s.directory heading fuel false below e.place e.node do fine := false
      return fine

end Style

/-! ## Options -/

/-- The ways to put names between marks. -/
def quotingStyles : List (List String) :=
  [["literal"], ["shell"], ["shell-always"], ["shell-escape"], ["shell-escape-always"], ["c"],
   ["c-maybe"], ["escape"], ["locale"], ["clocale"]]

/-- The number of bytes of a unit that sizes are counted in. -/
def unitOf? (s : Chars) : Option Nat :=
  match amount? s with
  | some n => if 0 < n then some n else none
  | none => amount? ('1' :: s)

/-- The choice that the last of some options makes which have values, or a complaint. -/
def lastChoice {α : Type} (a : Arguments) (letters : String) (usual : α)
    (own : Char → Option α) (option : Char → Option (String × List (List String)))
    (ofWord : String → Option α) : Act (Option α) := do
  let mut chosen := usual
  for (letter, value) in a.options do
    if letters.toList.contains letter then
      match option letter with
      | some (name, groups) =>
        if value.isEmpty then chosen := (own letter).getD chosen
        else
          match ← choose "ls" name groups value with
          | none => return none
          | some word => chosen := (ofWord word).getD chosen
      | none => chosen := (own letter).getD chosen
  return some chosen

/-- The layout that options ask for. -/
def layoutOf (a : Arguments) : Act (Option Layout) := do
  let isLong := a.options.any fun o ↦ "lgon".toList.contains o.1
  let chosen ← lastChoice a "1Cxmlgonφζ" Layout.single
    (fun c ↦ match c with
      | 'C' => some .vertical
      | 'x' => some .across
      | 'm' => some .commas
      | '1' => none
      | 'ζ' => none
      | _ => some .long)
    (fun c ↦ if c = 'φ' then some ("--format",
        [["verbose", "long"], ["commas"], ["horizontal", "across"], ["vertical"],
          ["single-column"]]) else none)
    (fun w ↦ match w with
      | "verbose" => some .long
      | "commas" => some .commas
      | "horizontal" => some .across
      | "vertical" => some .vertical
      | _ => some .single)
  return chosen.map fun layout ↦
    if a.last? "1Cxmlgonφ" == some '1' && layout != .long then (if isLong then .long else .single)
    else layout

/-- The order that options ask for. -/
def sortingOf (a : Arguments) : Act (Option Sorting) :=
  lastChoice a "SXvUftcuχ" Sorting.name
    (fun c ↦ match c with
      | 'S' => some .size
      | 'X' => some .extension
      | 'v' => some .version
      | 'U' => some .none
      | 'f' => some .none
      | _ => none)
    (fun c ↦ if c = 'χ' then some ("--sort",
        [["none"], ["time"], ["size"], ["extension"], ["version"], ["width"]]) else none)
    (fun w ↦ match w with
      | "none" => some .none
      | "size" => some .size
      | "extension" => some .extension
      | "version" => some .version
      | "width" => some .width
      | _ => some .name)

/-- The marks that options ask for. -/
def markingOf (a : Arguments) : Act (Option Marking) :=
  lastChoice a "Fpθι" Marking.none
    (fun c ↦ match c with
      | 'F' => some .all
      | 'p' => some .directories
      | 'θ' => some .kinds
      | _ => none)
    (fun c ↦ match c with
      | 'F' => some ("--classify", [["always", "yes", "force"], ["never", "no", "none"],
          ["auto", "tty", "if-tty"]])
      | 'ι' => some ("--indicator-style", [["none"], ["slash"], ["file-type"], ["classify"]])
      | _ => none)
    (fun w ↦ match w with
      | "slash" => some .directories
      | "file-type" => some .kinds
      | "classify" => some .all
      | "always" => some .all
      | _ => some .none)

/-- The way to put names between marks that options ask for. -/
def quotingOf (a : Arguments) : Act (Option String) :=
  lastChoice a "QbNκ" "literal"
    (fun c ↦ match c with
      | 'Q' => some "c"
      | 'b' => some "escape"
      | _ => some "literal")
    (fun c ↦ if c = 'κ' then some ("--quoting-style", quotingStyles) else none)
    some

/-- The options of the tool. -/
def lsOptions : Options :=
  ⟨"abcdfghiklmnopqrstuvxABCDFψ?GHLNQRSUXZ1ωσγαζθδη?χμ", "wIT" ++ "φβινκλξτ",
    [("all", 'a'), ("escape", 'b'), ("directory", 'd'), ("dired", 'D'), ("human-readable", 'h'),
      ("inode", 'i'), ("kibibytes", 'k'), ("numeric-uid-gid", 'n'), ("no-group", 'G'),
      ("hide-control-chars", 'q'), ("show-control-chars", 'ω'), ("reverse", 'r'), ("size", 's'),
      ("width", 'w'), ("almost-all", 'A'), ("ignore-backups", 'B'), ("classify", 'ψ'),
      ("file-type", 'θ'), ("si", 'σ'), ("dereference-command-line", 'H'), ("hide", 'λ'),
      ("ignore", 'I'), ("indicator-style", 'ι'), ("dereference", 'L'), ("literal", 'N'),
      ("quote-name", 'Q'), ("quoting-style", 'κ'), ("recursive", 'R'), ("format", 'φ'),
      ("sort", 'ξ'), ("tabsize", 'T'), ("time", 'τ'), ("time-style", 'ν'), ("zero", 'ζ'),
      ("color", 'η'), ("block-size", 'β'), ("context", 'Z'), ("author", 'α'),
      ("group-directories-first", 'γ'), ("full-time", 'δ')]⟩

/-- The arguments with every option under the letter that decides about it. -/
def withOwnLetters (a : Arguments) : Arguments :=
  { a with options := a.options.flatMap fun (letter, value) ↦ match letter with
    | 'ψ' => [('F', value)]
    | 'ξ' => [('χ', value)]
    | 'δ' => [('l', value)]
    | _ => [(letter, value)] }

/-- How a listing looks by options, or a complaint. -/
def styleOf (a : Arguments) : Act (Option Style) := do
  let colors ← lastChoice a "η" () (fun _ ↦ some ())
    (fun _ ↦ some ("--color", [["always", "yes", "force"], ["never", "no", "none"],
      ["auto", "tty", "if-tty"]])) (fun _ ↦ some ())
  let invalid (what : String) (value : Chars) : Act (Option Style) := do
    complain "ls" (what ++ ": " ++ value.marked)
    return none
  let size (letter : Char) (usual : Nat) : Except Chars Nat :=
    match a.value? letter with
    | none => .ok usual
    | some v => (number? v).elim (.error v) .ok
  match colors, ← layoutOf a, ← sortingOf a, ← markingOf a, ← quotingOf a with
  | some (), some layout, some sorting, some marking, some quoting =>
    match size 'w' 80, size 'T' 8, (a.value? 'β').map unitOf? with
    | .error v, _, _ => invalid "invalid line width" v
    | _, .error v, _ => invalid "invalid tab size" v
    | _, _, some none => do
      complain "ls" ("invalid --block-size argument " ++ ((a.value? 'β').getD []).marked)
      return none
    | .ok width, .ok tab, unit =>
      let quoting := if a.has 'ζ' && !a.has 'κ' then "literal" else quoting
      return some ⟨a, layout, sorting, marking, quoting, width, tab, (unit.getD none).getD 0,
        a.values 'I', a.values 'λ'⟩
  | _, _, _, _, _ => return none

/-- Lists files and the entries of directories. -/
def ls : Tool := fun words ↦
  withArgumentsOr 2 "ls" lsOptions words fun a ↦ do
    match ← styleOf (withOwnLetters a) with
    | none => return 2
    | some s =>
      let names := if a.operands.isEmpty then [['.']] else a.operands
      let fs ← files
      let mut status := 0
      let mut found : List Entry := []
      for path in names do
        let own := fs.present false (Chars.string path)
        let target := fs.present true (Chars.string path)
        let isDirectory := target.toOption.any fun x ↦ x.2.isDirectory
        let follows := s.has 'L' || s.has 'H' ||
          (isDirectory && s.layout != .long && !s.has 'd' && s.marking != .all)
        match if follows then target else own with
        | .ok (place, n) => found := ⟨path, place, n, true⟩ :: found
        | .error fault =>
          complain "ls" ("cannot access " ++ Chars.quoted path ++ ": " ++ fault.reason)
          status := 2
      let all := s.sorted found.reverse
      let isOpened (e : Entry) : Bool := e.node.isDirectory && !s.has 'd'
      let shown := all.filter fun e ↦ !isOpened e
      let opened := all.filter isOpened
      say (s.listing fs shown)
      let heading := names.length > 1 || s.has 'R'
      let mut first := shown.isEmpty
      for e in opened do
        unless ← s.directory heading deepest first e.name e.place e.node do
          status := max status (if e.node.allows .read then 1 else 2)
        first := false
      return status

end Tool
end Shell
end FirmwareLane
