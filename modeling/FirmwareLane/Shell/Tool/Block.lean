import FirmwareLane.Shell.Tool.Copy

/-!
# Tools that work on blocks of bytes

Tools that copy blocks of bytes, that give files a size, and that compare files byte by byte.
-/

set_option autoImplicit false
namespace FirmwareLane
namespace Shell
namespace Tool

open Act

/-! ## Copying blocks -/

/-- The number that a word of `dd` stands for, which may be a product. -/
def blockAmount? (s : Chars) : Option Nat :=
  (pieces 'x' s).foldl (fun n part ↦ n.bind fun n ↦ (amount? (withoutByteMark part)).map (n * ·))
    (some 1)
where
  /-- A number without the letter that says that bytes are counted. -/
  withoutByteMark (s : Chars) : Chars :=
    if s.getLast? = some 'B' && s.dropLast.all Char.isDigit then s.dropLast else s

/-- The operands of `dd` that are numbers. -/
def blockNumbers : List String :=
  ["bs", "ibs", "obs", "cbs", "count", "skip", "seek", "iseek", "oseek"]

/-- The other operands of `dd`, with the values that some of them may have. -/
def blockWords : List (String × Option (String × List String)) :=
  [("if", none), ("of", none),
   ("conv", some ("conversion", ["ascii", "ebcdic", "ibm", "block", "unblock", "lcase", "ucase",
      "sparse", "swab", "sync", "excl", "nocreat", "notrunc", "noerror", "fdatasync", "fsync"])),
   ("status", some ("status level", ["none", "noxfer", "progress"])),
   ("iflag", some ("input flag", ["append", "direct", "directory", "dsync", "sync", "fullblock",
      "nonblock", "noatime", "nocache", "noctty", "nofollow", "count_bytes", "skip_bytes"])),
   ("oflag", some ("output flag", ["append", "direct", "directory", "dsync", "sync", "nonblock",
      "nocache", "noctty", "nofollow", "seek_bytes"]))]

/-- What is wrong with an operand of `dd`, if something is; a mark tells whether it is misused. -/
def blockFault? (w : Chars) : Option (String × Bool) :=
  let name := Chars.string (w.takeWhile (· != '='))
  let value : Chars := w.drop (name.length + 1)
  if !w.contains '=' then some ("unrecognized operand '" ++ w.string ++ "'", true)
  else if blockNumbers.contains name then
    let isSize := name.endsWith "bs"
    match blockAmount? value with
    | some n =>
      if isSize && n = 0 then some ("invalid number: '" ++ value.string ++ "'", false) else none
    | none => some ("invalid number: '" ++ value.string ++ "'", false)
  else
    match blockWords.lookup name with
    | none => some ("unrecognized operand '" ++ w.string ++ "'", true)
    | some none => none
    | some (some (kind, known)) =>
      ((pieces ',' value).find? fun v ↦ !known.contains (Chars.string v)).map fun v ↦
        ("invalid " ++ kind ++ ": '" ++ v.string ++ "'", true)

/-- A text with neighbours exchanged. -/
def swapped : Chars → Chars
  | a :: b :: rest => b :: a :: swapped rest
  | rest => rest

/-- What the operands of `dd` ask for. -/
structure Copying where
  /-- The sizes of the blocks that are read and written. -/
  size : Nat
  outSize : Nat
  /-- The number of bytes that are passed over, that are copied, and that stay in front. -/
  skipped : Nat
  most : Option Nat
  start : Nat
  source : Option Chars
  target : Option Chars
  conversions : List Chars
  status : Option Chars
  /-- Whether the output is written at the end of what there is. -/
  append : Bool

/-- What words ask for. -/
def Copying.ofWords (words : List Chars) : Copying :=
  let value (name : String) : Option Chars :=
    words.reverse.findSome? fun w ↦ without? (name.toList ++ ['=']) w
  let amount (name : String) : Option Nat := (value name).bind blockAmount?
  let flags (name : String) : List Chars := pieces ',' ((value name).getD [])
  let inBytes (name : String) : Bool :=
    (value name).any fun v ↦ v.getLast? = some 'B' && v.dropLast.all Char.isDigit
  let size := ((amount "bs").or (amount "ibs")).getD 512
  let outSize := ((amount "bs").or (amount "obs")).getD 512
  let unit (bytes : Bool) (size : Nat) : Nat := if bytes then 1 else size
  let inFlags := flags "iflag"
  let outFlags := flags "oflag"
  { size
    outSize
    skipped := ((amount "skip").or (amount "iseek")).getD 0 *
      unit (inFlags.contains "skip_bytes".toList || inBytes "skip" || inBytes "iseek") size
    most := (amount "count").map
      (· * unit (inFlags.contains "count_bytes".toList || inBytes "count") size)
    start := ((amount "seek").or (amount "oseek")).getD 0 *
      unit (outFlags.contains "seek_bytes".toList || inBytes "seek" || inBytes "oseek") outSize
    source := value "if"
    target := value "of"
    conversions := flags "conv"
    status := value "status"
    append := outFlags.contains "append".toList }

/-- Whether a conversion is asked for. -/
def Copying.converts (x : Copying) (name : String) : Bool := x.conversions.contains name.toList

/-- A text as the conversions make it. -/
def Copying.converted (x : Copying) (s : Chars) : Chars :=
  let s := if x.converts "sync" then
      s ++ List.replicate ((x.size - s.length % x.size) % x.size) '\x00'
    else s
  let s := if x.converts "swab" then swapped s else s
  if x.converts "ucase" then s.map Char.toUpper
  else if x.converts "lcase" then s.map Char.toLower else s

/-- Says how many blocks were read and written. -/
def Copying.summary (x : Copying) (read written : Nat) : Act Unit := do
  let records (bytes size : Nat) : Chars :=
    number (bytes / size) ++ '+' :: number (if bytes % size = 0 then 0 else 1) ++ " records ".toList
  unless x.status = some "none".toList do
    warn (records read x.size ++ "in\n".toList ++ records written x.outSize ++ "out\n".toList)
    unless x.status = some "noxfer".toList do
      warn (number written ++ " bytes copied, 0 s, Infinity B/s\n".toList)

/-- Writes the copy; the error tells why that cannot be done, and whether it was the opening of the
file that failed. -/
def Copying.write (x : Copying) (text : Chars) : Act (Except (Files.Fault × Bool) Unit) := do
  match x.target with
  | none =>
    match ← Act.write 1 text with
    | .ok () => return .ok ()
    | .error fault => return .error (fault, false)
  | some name =>
    let isThere := (← files).isThere name.string
    if x.converts "excl" && isThere then return .error (.taken, true)
    else if x.converts "nocreat" && !isThere then return .error (.notFound, true)
    else
      let old := match (← files).read name.string with
        | .ok b => b
        | .error _ => []
      let kept := if x.converts "notrunc" then old else old.take x.start
      let start := if x.append then kept.length else x.start
      let new := splice kept start (Chars.toBytes text)
      match ← writeFile name (Chars.ofBytes new) with
      | .ok () => return .ok ()
      | .error fault => return .error (fault, fault != .noSpace)

/-- Copies blocks of bytes. -/
def dd : Tool := fun words ↦ do
  match words.findSome? blockFault? with
  | some (text, true) => misused "dd" text
  | some (text, false) => do
    complain "dd" text
    return 1
  | none => do
    let x := Copying.ofWords words
    let source := x.source.getD ['-']
    let shown : Chars := x.source.getD "standard input".toList
    let wanted := x.most.map (x.skipped + ·)
    let front (isAll : Bool) (s : Chars) : Option Nat :=
      match wanted with
      | some n => if n ≤ s.length || isAll then some (min n s.length) else none
      | none => if isAll then some s.length else none
    match ← reading source fun d ↦ readFront d wanted 1 front with
    | .error .isDirectory => do
      complain "dd" ("error reading '" ++ shown.string ++ "': " ++ Files.Fault.isDirectory.reason)
      x.summary 0 0
      return 1
    | .error fault => do
      complain "dd" ("failed to open '" ++ shown.string ++ "': " ++ fault.reason)
      return 1
    | .ok all => do
      if all.length < x.skipped then
        let name := if x.source.isNone then "'standard input'" else shown.string
        complain "dd" (name ++ ": cannot skip to specified offset")
      let text := all.drop x.skipped
      let copy := x.converted text
      match ← x.write copy with
      | .ok () => do
        x.summary text.length copy.length
        return 0
      | .error (fault, isOpening) => do
        let name := Chars.string (x.target.getD "standard output".toList)
        complain "dd" ((if isOpening then "failed to open '" else "error writing '") ++ name ++
          "': " ++ fault.reason)
        unless isOpening do x.summary (min text.length x.size) 0
        return 1

/-! ## Sizes -/

/-- The size that a word asks for, given the one that there is; nothing if it is no number. -/
def newSize? (old : Nat) (s : Chars) : Option Nat :=
  match s with
  | '+' :: s => (amount? s).map (old + ·)
  | '-' :: s => (amount? s).map (old - ·)
  | '<' :: s => (amount? s).map (min old)
  | '>' :: s => (amount? s).map (max old)
  | '/' :: s => (amount? s).bind fun n ↦ if n = 0 then none else some (old / n * n)
  | '%' :: s => (amount? s).bind fun n ↦ if n = 0 then none else some ((old + n - 1) / n * n)
  | s => amount? s

/-- Gives files a size. -/
def truncate : Tool := fun words ↦
  withArguments "truncate"
    ⟨"co", "sr", [("no-create", 'c'), ("size", 's'), ("reference", 'r')]⟩ words fun a ↦ do
    let size := a.value? 's'
    if size.isNone && (a.value? 'r').isNone then
      misused "truncate" "you must specify either '--size' or '--reference'"
    else if (size.map (newSize? 0)) == some none then
      complain "truncate" ("Invalid number: '" ++ Chars.string (size.getD []) ++ "'")
      return 1
    else if a.operands.isEmpty then misused "truncate" "missing file operand"
    else
      let fs ← files
      let reference : Except Files.Fault (Option Nat) := match a.value? 'r' with
        | none => .ok none
        | some name => (fs.node name.string).map fun node ↦ some node.bytes.length
      match reference with
      | .error fault => do
        complain "truncate" ("cannot stat '" ++ Chars.string ((a.value? 'r').getD []) ++ "': " ++
          fault.reason)
        return 1
      | .ok reference =>
        each a.operands fun name ↦ do
          let old ← match (← files).read name.string with
            | .ok b => pure (some b)
            | .error _ => pure none
          if old.isNone && a.has 'c' && !(← files).isThere name.string then return true
          let bytes := old.getD []
          let n := match size with
            | some s => (newSize? (reference.getD bytes.length) s).getD 0
            | none => reference.getD 0
          let new := bytes.take n ++ List.replicate (n - bytes.length) 0
          match ← writeFile name (Chars.ofBytes new) with
          | .ok () => return true
          | .error fault => do
            complain "truncate" ("cannot open '" ++ name.string ++ "' for writing: " ++ fault.reason)
            return false

/-! ## Comparing -/

/-- The bytes in which texts differ, with their numbers and those of their lines. -/
def differences : Nat → Nat → Chars → Chars → List (Nat × Nat × Char × Char)
  | n, line, a :: as, b :: bs =>
    let rest := differences (n + 1) (if a = '\n' then line + 1 else line) as bs
    if a = b then rest else (n, line, a, b) :: rest
  | _, _, _, _ => []

/-- The first byte in which texts differ, with its number and that of its line. -/
def firstDifference : Nat → Nat → Chars → Chars → Option (Nat × Nat × Char × Char)
  | n, line, a :: as, b :: bs =>
    if a = b then firstDifference (n + 1) (if a = '\n' then line + 1 else line) as bs
    else some (n, line, a, b)
  | _, _, _, _ => none

/-- Where a file ends that another one is longer than, given their common text. -/
def endText (a : Arguments) (common : Chars) : String :=
  let bytes := (number common.length).string
  let lines := common.count '\n'
  if common.isEmpty then " which is empty"
  else if a.has 'l' then " after byte " ++ bytes
  else if common.getLast? = some '\n' then " after byte " ++ bytes ++ ", line " ++
    (number lines).string
  else " after byte " ++ bytes ++ ", in line " ++ (number (lines + 1)).string

/-- Says in which bytes two texts differ, and tells whether they are the same. -/
def compareTexts (a : Arguments) (x y : Chars) (s t : Chars) : Act Bool := do
  let octal (c : Char) : Chars := paddedText 3 (Text.Numeral.write 8 c.toNat)
  let common := min s.length t.length
  if s = t then return true
  unless a.has 's' do
    if a.has 'l' then
      let width := (number (max s.length t.length)).length
      for (n, _, c, d) in differences 1 1 s t do
        if a.has 'b' then
          let first := visible c
          say (padded width n ++ ' ' :: octal c ++ ' ' :: first ++
            List.replicate (4 - first.length) ' ' ++ ' ' :: octal d ++ ' ' :: visible d ++ ['\n'])
        else say (padded width n ++ ' ' :: octal c ++ ' ' :: octal d ++ ['\n'])
    match if a.has 'l' then none else firstDifference 1 1 s t with
    | some (n, line, c, d) =>
      say (x ++ ' ' :: y ++ " differ: ".toList ++ (if a.has 'b' then "byte " else "char ").toList ++
        number n ++ ", line ".toList ++ number line ++
        (if a.has 'b' then " is ".toList ++ octal c ++ ' ' :: visible c ++ ' ' :: octal d ++
          ' ' :: visible d else []) ++ ['\n'])
    | none =>
      if s.length ≠ t.length then
        let shorter := if s.length < t.length then x else y
        complain "cmp" ("EOF on " ++ shorter.string ++ endText a (s.take common))
  return false

/-- Compares two files. -/
def cmp : Tool := fun words ↦ do
  let misused (text : String) : Act Nat := do
    complain "cmp" text
    complain "cmp" "Try 'cmp --help' for more information."
    return 2
  match Arguments.read false
      ⟨"slb", "ni",
        [("silent", 's'), ("quiet", 's'), ("verbose", 'l'), ("print-bytes", 'b'), ("bytes", 'n'),
          ("ignore-initial", 'i')]⟩ words with
  | .error fault => misused fault.message
  | .ok a =>
    let value (c : Char) (name : String) : Except String (Option Nat) :=
      match a.value? c with
      | none => .ok none
      | some v =>
        match amount? v with
        | some n => .ok (some n)
        | none => .error ("invalid --" ++ name ++ " value '" ++ v.string ++ "'")
    match a.operands, value 'n' "bytes", value 'i' "ignore-initial" with
    | [], _, _ => misused "missing operand after 'cmp'"
    | _, .error text, _ => misused text
    | _, _, .error text => misused text
    | x :: rest, .ok most, .ok skipped =>
      let y := (rest.head?).getD ['-']
      let cut (s : Chars) : Chars :=
        let s := s.drop (skipped.getD 0)
        s.take (most.getD s.length)
      let refuse (name : Chars) (fault : Files.Fault) : Act Nat := do
        unless a.has 's' && fault = .notFound do complainOf "cmp" name fault
        return 2
      match ← whole x with
      | .error fault => refuse x fault
      | .ok s =>
        match ← whole y with
        | .error fault => refuse y fault
        | .ok t => return if ← compareTexts a x y (cut s) (cut t) then 0 else 1

end Tool
end Shell
end FirmwareLane
