import FirmwareLane.Shell.Regex
import FirmwareLane.Shell.Tool.Copy

/-!
# Tools that cut lines

Tools that take fields or characters out of lines, put lines side by side, break them and number
them.
-/

set_option autoImplicit false
namespace FirmwareLane
namespace Shell
namespace Tool

open Act

/-! ## Fields -/

/-- A range of numbers from one on; its end may be open. -/
abbrev Range := Nat × Option Nat

/-- Why a list of ranges makes no sense. -/
inductive RangeFault where
  | fromOne
  | decreasing
  | noEndpoint
  | twoHyphens
  | notNumber (text : Chars)
  deriving DecidableEq, Repr

/-- The wording of a fault, in a list of fields or of positions. -/
def RangeFault.message (isField : Bool) : RangeFault → String
  | .fromOne =>
    (if isField then "fields" else "byte/character positions") ++ " are numbered from 1"
  | .decreasing => "invalid decreasing range"
  | .noEndpoint => "invalid range with no endpoint: -"
  | .twoHyphens => if isField then "invalid field range" else "invalid byte or character range"
  | .notNumber text =>
    (if isField then "invalid field value '" else "invalid byte/character position '") ++
      text.string ++ "'"

/-- The range that a text stands for. -/
def range (s : Chars) : Except RangeFault Range := do
  let bound (t : Chars) : Except RangeFault (Option Nat) :=
    if t.isEmpty then .ok none
    else
      match t.dropWhile Char.isDigit with
      | [] => .ok (number? t)
      | rest => .error (.notNumber rest)
  match pieces '-' s with
  | [a] =>
    match ← bound a with
    | some n => if n = 0 then throw .fromOne else return (n, some n)
    | none => throw .fromOne
  | [a, b] =>
    match ← bound a, ← bound b with
    | none, none => throw .noEndpoint
    | some 0, _ => throw .fromOne
    | some m, none => return (m, none)
    | first, some n => if n < first.getD 1 then throw .decreasing else return (first.getD 1, some n)
  | _ => throw .twoHyphens

/-- Ranges in the order of their beginnings, with those that overlap as one. -/
def mergedRanges : List Range → List Range
  | (a, b) :: rest =>
    match b, mergedRanges rest with
    | some b, (c, d) :: more =>
      if c ≤ b then (a, d.map (max b)) :: more else (a, some b) :: (c, d) :: more
    | none, _ => [(a, none)]
    | b, [] => [(a, b)]
  | [] => []

/-- The numbers from one on that no range has. -/
def complementFrom (first : Nat) : List Range → List Range
  | [] => [(first, none)]
  | (a, b) :: rest =>
    let behind := match b with
      | some b => complementFrom (b + 1) rest
      | none => []
    if first < a then (first, some (a - 1)) :: behind else behind

/-- The ranges that a list stands for. -/
def ranges (s : Chars) : Except RangeFault (List Range) := do
  let all ← ((pieces ',' s).flatMap (pieces ' ')).mapM range
  return mergedRanges (all.mergeSort fun x y ↦ x.1 ≤ y.1)

/-- The elements of a list in a range. -/
def inRange {α : Type} (xs : List α) (r : Range) : List α :=
  let from_ := xs.drop (r.1 - 1)
  match r.2 with
  | some last => from_.take (last + 1 - r.1)
  | none => from_

/-- What `cut` takes out of a line, if it prints the line at all. -/
def cutLine (a : Arguments) (isField : Bool) (rs : List Range) (line : Chars) : Option Chars :=
  let separator := ((a.value? 'd').map fun s ↦ s.head?.getD '\x00').getD '\t'
  if isField then
    if !line.contains separator then if a.has 's' then none else some line
    else
      let fields := pieces separator line
      some (joinWith ((a.value? 'o').getD [separator]) (rs.flatMap (inRange fields)))
  else
    let parts := (rs.map (inRange line)).filter fun s ↦ !s.isEmpty
    some (joinWith ((a.value? 'o').getD []) parts)

/-- Cuts fields or characters out of lines. -/
def cut : Tool := fun words ↦
  withArguments "cut"
    ⟨"snC", "dfcbo",
      [("fields", 'f'), ("delimiter", 'd'), ("characters", 'c'), ("bytes", 'b'),
        ("only-delimited", 's'), ("output-delimiter", 'o'), ("complement", 'C')]⟩
    words fun a ↦ do
      let lists := a.options.filter fun o ↦ "fcb".toList.contains o.1
      let isField := a.has 'f'
      match lists with
      | _ :: _ :: _ => misused "cut" "only one list may be specified"
      | [] => misused "cut" "you must specify a list of bytes, characters, or fields"
      | [(_, list)] =>
        if (a.value? 'd').any fun s ↦ s.length > 1 then
          misused "cut" "the delimiter must be a single character"
        else if a.has 'd' && !isField then
          misused "cut" "an input delimiter may be specified only when operating on fields"
        else if a.has 's' && !isField then
          misused "cut"
            "suppressing non-delimited lines makes sense\n\tonly when operating on fields"
        else
          match ranges list with
          | .error fault => misused "cut" (fault.message isField)
          | .ok rs =>
            let rs := if a.has 'C' then complementFrom 1 rs else rs
            eachStream "cut" a.operands fun _ text ↦
              say (unlines ((linesOf text).filterMap (cutLine a isField rs)))

/-- The separators that a list stands for, with its escapes replaced; a backslash and a zero stand
for none.  Nothing if the list ends in a backslash. -/
def separatorList : Chars → Option (List Chars)
  | [] => some []
  | ['\\'] => none
  | '\\' :: c :: rest =>
    let one : Chars := match c with
      | '0' => []
      | 'n' => ['\n']
      | 't' => ['\t']
      | 'b' => ['\x08']
      | 'f' => ['\x0c']
      | 'r' => ['\r']
      | 'v' => ['\x0b']
      | c => [c]
    (separatorList rest).map (one :: ·)
  | c :: rest => (separatorList rest).map ([c] :: ·)

/-- Texts with separators in between, which are used in turn. -/
def joinInTurn (separators : List Chars) (texts : List Chars) : Chars :=
  (texts.zipIdx.map fun (text, i) ↦
    if i = 0 then text else ((separators[(i - 1) % separators.length]?).getD []) ++ text).flatten

/-- The lines of texts side by side.  The input, if it is named several times, is dealt out. -/
def paste : Tool := fun words ↦
  withArguments "paste" ⟨"sz", "d", [("serial", 's'), ("delimiters", 'd')]⟩ words fun a ↦ do
    let list := (a.value? 'd').getD ['\t']
    match separatorList list with
    | none => do
      complain "paste" ("delimiter list ends with an unescaped backslash: " ++ list.string)
      return 1
    | some separators =>
      let names := inputNames a.operands
      let shares := names.count ['-']
      let input ← if shares = 0 then pure [] else do
        match ← Act.read 0 with
        | .ok text => pure (linesOf text)
        | .error _ => pure []
      let mut columns : List (List Chars) := []
      let mut share := 0
      let mut status := 0
      for name in names do
        if name = ['-'] then
          let chosen := if a.has 's' then (if share = 0 then input else [])
            else (input.zipIdx.filter fun (_, i) ↦ i % shares == share).map (·.1)
          columns := columns ++ [chosen]
          share := share + 1
        else
          match ← whole name with
          | .ok text => columns := columns ++ [linesOf text]
          | .error fault =>
            complainOf "paste" name fault
            status := 1
            unless a.has 's' do return 1
      if a.has 's' then
        say (unlines (columns.map (joinInTurn separators)))
      else
        let height := columns.foldl (fun n column ↦ max n column.length) 0
        let arrays := columns.map List.toArray
        for i in List.range height do
          say (joinInTurn separators (arrays.map fun column ↦ (column[i]?).getD []) ++ ['\n'])
      return status

/-! ## Breaking -/

/-- The column behind a character. -/
def columnBehind (bytes : Bool) (column : Nat) (c : Char) : Nat :=
  if bytes then column + 1
  else if c = '\x08' then column - 1
  else if c = '\r' then 0
  else if c = '\t' then column - column % 8 + 8
  else column + 1

/-- The column behind characters in reverse. -/
def columnOf (bytes : Bool) (s : Chars) : Nat := s.foldr (fun c n ↦ columnBehind bytes n c) 0

/-- What is known while lines are broken: the text so far and the current line, both in reverse, and
the column behind the line. -/
structure Folding where
  done : Chars
  line : Chars
  column : Nat

/-- The text with one more character. -/
def Folding.add (bytes atBlanks : Bool) (width : Nat) (x : Folding) (c : Char) : Folding :=
  let isBlank (d : Char) : Bool := d = ' ' || d = '\t'
  if c = '\n' then ⟨'\n' :: x.line ++ x.done, [], 0⟩
  else
    let behind := columnBehind bytes x.column c
    if behind ≤ width || x.line.isEmpty then ⟨x.done, c :: x.line, behind⟩
    else
      let tail :=
        if atBlanks && x.line.any isBlank then x.line.takeWhile fun d ↦ !isBlank d else []
      let done := '\n' :: x.line.drop tail.length ++ x.done
      let column := columnOf bytes tail
      let behind := columnBehind bytes column c
      if behind ≤ width || tail.isEmpty then ⟨done, c :: tail, behind⟩
      else ⟨'\n' :: tail ++ done, [c], columnBehind bytes 0 c⟩

/-- A text with lines broken that are too long. -/
def folded (bytes atBlanks : Bool) (width : Nat) (s : Chars) : Chars :=
  let x := s.foldl (Folding.add bytes atBlanks width) ⟨[], [], 0⟩
  (x.line ++ x.done).reverse

/-- The words with a width that is an option by itself given as a value. -/
def withWidth : List Chars → List Chars
  | ('-' :: c :: digits) :: rest =>
    if c.isDigit then "-w".toList :: (c :: digits) :: rest else ('-' :: c :: digits) :: rest
  | words => words

/-- Breaks lines that are too long. -/
def fold : Tool := fun words ↦
  withArguments "fold" ⟨"bs", "w", [("width", 'w'), ("spaces", 's'), ("bytes", 'b')]⟩
    (withWidth words) fun a ↦ do
    let given := (a.value? 'w').getD "80".toList
    let invalid (reason : String) : Act Nat := do
      complain "fold" ("invalid number of columns: '" ++ given.string ++ "'" ++ reason)
      return 1
    match number? given with
    | none => invalid ""
    | some 0 => invalid ": Numerical result out of range"
    | some width =>
      eachStream "fold" a.operands fun _ text ↦
        say (folded (a.has 'b') (a.has 's') width text)

/-! ## Numbering -/

/-- Which lines are numbered. -/
inductive Numbering where
  | all
  | nonempty
  | none_
  | found (r : Regex)

/-- The lines that a word names. -/
def numbering? (s : Chars) : Option Numbering :=
  match s with
  | ['a'] => some .all
  | ['t'] => some .nonempty
  | ['n'] => some .none_
  | 'p' :: r => (Regex.read ⟨false, true⟩ r).toOption.map .found
  | _ => none

/-- Whether a line is numbered. -/
def Numbering.has (line : Chars) : Numbering → Bool
  | .all => true
  | .nonempty => !line.isEmpty
  | .none_ => false
  | .found r => Regex.isIn false r line

/-- How lines are numbered. -/
structure NumberStyle where
  body : Numbering
  width : Nat
  separator : Chars
  start : Int
  step : Int
  form : Chars

/-- A number in front of a line. -/
def NumberStyle.shown (style : NumberStyle) (n : Int) : Chars :=
  let digits := integer n
  if style.form = "ln".toList then digits ++ List.replicate (style.width - digits.length) ' '
  else if style.form = "rz".toList then
    let ds := number n.natAbs
    let sign : Chars := if n < 0 then ['-'] else []
    sign ++ List.replicate (style.width - sign.length - ds.length) '0' ++ ds
  else paddedText style.width digits

/-- Numbered lines; the parts of a page other than its body have none. -/
def NumberStyle.lines (style : NumberStyle) : Bool → Int → List Chars → List Chars
  | _, _, [] => []
  | inBody, n, line :: rest =>
    match line.length, "\\:\\:\\:".toList.take line.length == line with
    | 6, true => [] :: style.lines false style.start rest
    | 4, true => [] :: style.lines true n rest
    | 2, true => [] :: style.lines false n rest
    | _, _ =>
      if inBody && style.body.has line then
        (style.shown n ++ style.separator ++ line) :: style.lines inBody (n + style.step) rest
      else
        (List.replicate (style.width + style.separator.length) ' ' ++ line) ::
          style.lines inBody n rest

/-- Numbers lines. -/
def nl : Tool := fun words ↦
  withArguments "nl"
    ⟨"p", "bwsvinfhdl",
      [("body-numbering", 'b'), ("number-width", 'w'), ("number-separator", 's'),
        ("starting-line-number", 'v'), ("line-increment", 'i'), ("number-format", 'n')]⟩
    words fun a ↦ do
    let valueOf (letter : Char) (usual : String) : Chars := (a.value? letter).getD usual.toList
    let body := valueOf 'b' "t"
    let form := valueOf 'n' "rn"
    match numbering? body, integer? (valueOf 'v' "1"), integer? (valueOf 'i' "1"),
        number? (valueOf 'w' "6") with
    | none, _, _, _ => misused "nl" ("invalid body numbering style: '" ++ body.string ++ "'")
    | _, none, _, _ => do
      complain "nl" ("invalid starting line number: '" ++ (valueOf 'v' "").string ++ "'")
      return 1
    | _, _, none, _ => do
      complain "nl" ("invalid line number increment: '" ++ (valueOf 'i' "").string ++ "'")
      return 1
    | _, _, _, none => do
      complain "nl" ("invalid line number field width: '" ++ (valueOf 'w' "").string ++ "'")
      return 1
    | some body, some start, some step, some width =>
      if width = 0 then
        complain "nl" "invalid line number field width: '0': Numerical result out of range"
        return 1
      else if form.string ∉ ["ln", "rn", "rz"] then
        misused "nl" ("invalid line numbering format: '" ++ form.string ++ "'")
      else
        let (text, more, status) ← togetherOn "nl" a.operands
        let style : NumberStyle := ⟨body, width, valueOf 's' "\t", start, step, form⟩
        say (unlines (style.lines true start (linesOf text)))
        endWith more status

end Tool
end Shell
end FirmwareLane
