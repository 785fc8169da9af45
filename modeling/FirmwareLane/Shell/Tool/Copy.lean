import FirmwareLane.Shell.Tool.Basic

/-!
# Tools that copy text

Tools that copy their input or the files they are given: all of it, its beginning or its end, in its
order or the opposite one.
-/

set_option autoImplicit false
namespace FirmwareLane
namespace Shell
namespace Tool

open Act

/-! ## Whole texts -/

/-- A character as `cat` shows it: a caret stands before what is no letter, and `M-` before a byte
above 127. -/
def visible (c : Char) : Chars :=
  let low (n : Nat) : Chars :=
    if n < 32 then ['^', Char.ofNat (n + 64)] else if n = 127 then "^?".toList else [Char.ofNat n]
  if c.toNat < 128 then low c.toNat else "M-".toList ++ low (c.toNat - 128)

/-- A line as options of `cat` ask for it. -/
def catLine (a : Arguments) (line : Chars) : Chars :=
  let isVisible := a.has 'v' || a.has 'A' || a.has 'e' || a.has 't'
  let hasTabs := a.has 'T' || a.has 'A' || a.has 't'
  let hasEnds := a.has 'E' || a.has 'A' || a.has 'e'
  let shown (s : Chars) : Chars :=
    s.flatMap fun c ↦
      if c = '\t' then (if hasTabs then "^I".toList else [c])
      else if isVisible then visible c else [c]
  if hasEnds && !isVisible && line.getLast? == some '\r' then shown line.dropLast ++ "^M".toList
  else shown line

/-- The lines without those empty ones that follow an empty one. -/
def withoutEmptyRuns : List Chars → List Chars
  | [] :: [] :: rest => withoutEmptyRuns ([] :: rest)
  | line :: rest => line :: withoutEmptyRuns rest
  | [] => []

/-- A text with blanks in front of it up to a width. -/
def paddedText (width : Nat) (s : Chars) : Chars := List.replicate (width - s.length) ' ' ++ s

/-- A number in front of which blanks fill a width. -/
def padded (width n : Nat) : Chars := paddedText width (number n)

/-- Whether a text to be copied is the file that the output goes to, so that it would never end. -/
def feedsItself (name : Chars) : Act Bool := do
  match ← stream? 1 with
  | some (_, .file identity place offset append _ true) => do
    let length := (bytesOf (← get) identity place).length
    let position := if append then length else offset
    if name = ['-'] then
      match ← stream? 0 with
      | some (_, .file i _ start ..) => return i == identity && start < position
      | _ => return false
    else return (← isOutput name) && 0 < position
  | _ => return false

/-- Whether a text is refused because it is the file that the output goes to. -/
def refused (name : Chars) : Act Bool := do
  if ← feedsItself name then
    complain "cat" (name.string ++ ": input file is output file")
    return true
  else return false

/-- Copies what is there of texts to the output. -/
def copyAll (operands : List Chars) : Act Nat := do
  each (inputNames operands) fun name ↦ do
    if ← refused name then return false
    else
      match ← contents name with
      | .ok (text, more) => do
        say text
        if more then throw .starved
        return true
      | .error fault => do
        complainOf "cat" name fault
        return false

/-- Copies texts to the output, their lines changed as options ask for it. -/
def copyLines (a : Arguments) : Act Nat := do
  let names ← (inputNames a.operands).filterM fun name ↦ do return !(← refused name)
  let (text, more, status) ← if names.isEmpty then pure ([], false, 1)
    else togetherOn "cat" names
  let finish : Chars := if a.has 'E' || a.has 'A' || a.has 'e' then "$\n".toList else ['\n']
  let lines := if a.has 's' then withoutEmptyRuns (linesOf text) else linesOf text
  let ended := text.isEmpty || text.getLast? == some '\n'
  let mut n := 0
  for (line, i) in lines.zipIdx do
    let isNumbered := if a.has 'b' then !line.isEmpty else a.has 'n'
    if isNumbered then n := n + 1
    let start : Chars := if isNumbered then padded 6 n ++ ['\t'] else []
    say (start ++ catLine a line ++ if i + 1 < lines.length || ended then finish else [])
  let fine := names.length = (inputNames a.operands).length
  endWith more (if fine then status else 1)

/-- Copies texts to the output. -/
def cat : Tool := fun words ↦
  withArguments "cat"
    ⟨"unvetTEAbs", "",
      [("number", 'n'), ("show-all", 'A'), ("number-nonblank", 'b'), ("show-ends", 'E'),
        ("squeeze-blank", 's'), ("show-tabs", 'T'), ("show-nonprinting", 'v')]⟩ words fun a ↦
    if a.options.all fun o ↦ o.1 == 'u' then copyAll a.operands else copyLines a

/-- Copies the input to the output and to files. -/
def tee : Tool := fun words ↦
  withArguments "tee" ⟨"aip", "", [("append", 'a'), ("ignore-interrupts", 'i')]⟩ words fun a ↦ do
    match ← readOn 0 with
    | .error fault => do
      complain "tee" ("read error: " ++ fault.reason)
      return 1
    | .ok (text, more) => do
      let status ← each a.operands fun name ↦ do
        let before ← if a.has 'a' then do
            match (← files).read name.string with
            | .ok b => pure (Chars.ofBytes b)
            | .error _ => pure []
          else pure []
        match ← writeFile name (before ++ text) with
        | .ok () => return true
        | .error fault => do
          complainOf "tee" name fault
          return false
      say text
      endWith more status

/-- The lines of a text, each with its line feed if it has one. -/
def endedLines (s : Chars) : List Chars :=
  let lines := linesOf s
  if s.getLast? = some '\n' ∨ s.isEmpty then lines.map (· ++ ['\n'])
  else lines.dropLast.map (· ++ ['\n']) ++ (lines.getLast?).toList

/-- Lines in the opposite order. -/
def tac : Tool := fun words ↦
  withArguments "tac" ⟨"b", "s", [("before", 'b'), ("separator", 's')]⟩ words fun a ↦ do
    each (inputNames a.operands) fun name ↦ do
      match ← whole name with
      | .ok text => do
        say (endedLines text).reverse.flatten
        return true
      | .error fault => do
        let isMissing := fault != .isDirectory
        complain "tac" (if isMissing then
            "failed to open '" ++ name.string ++ "' for reading: " ++ fault.reason
          else name.string ++ ": read error: " ++ fault.reason)
        return false

/-- Lines spelled backwards. -/
def rev : Tool := fun words ↦
  withArguments "rev" ⟨"", "", []⟩ words fun a ↦
    each (inputNames a.operands) fun name ↦ do
      match ← contents name with
      | .ok (text, more) => do
        for line in endedLines (if more then wholeLines text else text) do
          let body := line.filter (· != '\n')
          say (body.reverse ++ line.drop body.length)
        if more then throw .starved
        return true
      | .error fault => do
        complain "rev" ("cannot open " ++ name.string ++ ": " ++ fault.reason)
        return false

/-! ## Beginnings and ends -/

/-- How much of a text is wanted. -/
structure Extent where
  bytes : Bool
  /-- Whether the amount is counted from the other end. -/
  opposite : Bool
  amount : Nat

/-- The multipliers of amounts. -/
def multipliers : List (String × Nat) :=
  [("", 1), ("b", 512), ("kB", 1000), ("k", 1024), ("K", 1024), ("KiB", 1024),
   ("MB", 1000 * 1000), ("M", 1024 * 1024), ("MiB", 1024 * 1024), ("GB", 1000 * 1000 * 1000),
   ("G", 1024 * 1024 * 1024), ("GiB", 1024 * 1024 * 1024), ("m", 1024 * 1024), ("c", 1), ("w", 2)]

/-- The number that a word with a multiplier stands for. -/
def amount? (s : Chars) : Option Nat :=
  let ds := s.takeWhile Char.isDigit
  match number? ds, multipliers.lookup (Chars.string (s.drop ds.length)) with
  | some n, some m => some (m * n)
  | _, _ => none

/-- The words with an amount that is an option by itself given as a value.  The error is an amount
with something behind it. -/
def withAmounts (isTail : Bool) : List Chars → Except Char (List Chars)
  | [] => .ok []
  | w :: more =>
    match w with
    | ['-', '-'] => .ok (w :: more)
    | sign :: c :: rest =>
      if (sign = '-' ∨ (sign = '+' ∧ isTail)) ∧ c.isDigit then
        let digits := (c :: rest).takeWhile Char.isDigit
        let sign := if sign = '+' then ['+'] else []
        match (c :: rest).drop digits.length with
        | [] => .ok ("-n".toList :: (sign ++ digits) :: more)
        | ['c'] => .ok ("-c".toList :: (sign ++ digits) :: more)
        | ['l'] => .ok ("-n".toList :: (sign ++ digits) :: more)
        | ['q'] => .ok ("-q".toList :: "-n".toList :: (sign ++ digits) :: more)
        | d :: _ => .error d
      else .ok (w :: more)
    | _ => .ok (w :: more)

/-- The extent that options ask for; the opposite end is marked by a sign.  The error is what is no
number. -/
def extent (mark : Char) (a : Arguments) : Except (Bool × Chars) Extent :=
  let read (bytes : Bool) (s : Chars) : Except (Bool × Chars) Extent :=
    let opposite := s.head? == some mark
    let digits := match s with
      | c :: rest => if c = '-' ∨ c = '+' then rest else s
      | [] => []
    match amount? digits with
    | some n => .ok ⟨bytes, opposite, n⟩
    | none => .error (bytes, if opposite && mark = '-' then s.drop 1 else s)
  match a.last? "nc" with
  | some 'c' => read true ((a.value? 'c').getD [])
  | some _ => read false ((a.value? 'n').getD [])
  | none => .ok ⟨false, false, 10⟩

/-- The number of characters in the first lines of a text, so many of them at most, and how many of
the lines are missing. -/
def lengthOfLines : Nat → Nat → Chars → Nat × Nat
  | 0, n, _ => (n, 0)
  | lines, n, [] => (n, lines)
  | lines + 1, n, c :: rest => lengthOfLines (if c = '\n' then lines else lines + 1) (n + 1) rest

/-- A text without its first lines. -/
def withoutLines : Nat → Chars → Chars
  | 0, s => s
  | n + 1, s => withoutLines n ((s.dropWhile (· != '\n')).drop 1)

/-- Goes through texts, with their names in between if there are several; `act` reads a
descriptor. -/
def withHeadings (program : String) (a : Arguments)
    (act : Nat → Act (Except Files.Fault Unit)) : Act Nat := do
  let names := inputNames a.operands
  let headings := (names.length > 1 && !a.has 'q') || a.has 'v'
  let mut status := 0
  let mut first := true
  for name in names do
    let heading (first : Bool) : Act Unit := do
      if headings then
        let shown := if name = ['-'] then "standard input".toList else name
        say ((if first then [] else ['\n']) ++ "==> ".toList ++ shown ++ " <==\n".toList)
    let beginning := first
    match ← reading name fun d ↦ do
      heading beginning
      act d with
    | .ok () => first := false
    | .error .isDirectory =>
      if name != ['-'] then heading first
      first := false
      let shown := if name = ['-'] then "standard input" else Chars.string name
      complain program ("error reading '" ++ shown ++ "': " ++ Files.Fault.isDirectory.reason)
      status := 1
    | .error fault =>
      complain program ("cannot open '" ++ Chars.string name ++ "' for reading: " ++ fault.reason)
      status := 1
  return status

/-- The options of `head` and `tail`. -/
def endOptions : Options :=
  ⟨"qvfFz", "ncs",
    [("lines", 'n'), ("bytes", 'c'), ("quiet", 'q'), ("silent", 'q'), ("verbose", 'v'),
      ("follow", 'f'), ("zero-terminated", 'z')]⟩

/-- Goes on with the extent that words ask for and the other arguments, or complains. -/
def withExtent (program : String) (mark : Char) (words : List Chars)
    (go : Arguments → Extent → Act Nat) : Act Nat := do
  match withAmounts (program = "tail") words with
  | .error c =>
    if program = "tail" then
      complain "tail" ("option used in invalid context -- " ++
        Chars.string (((words.head?).getD []).drop 1 |>.takeWhile Char.isDigit))
      return 1
    else misused program ("invalid trailing option -- " ++ String.ofList [c])
  | .ok words =>
    withArguments program endOptions words fun a ↦ do
      match extent mark a with
      | .ok e => go a e
      | .error (bytes, s) => do
        complain program ("invalid number of " ++ (if bytes then "bytes" else "lines") ++ ": '" ++
          s.string ++ "'")
        return 1

/-- The number of bytes that are read at once. -/
def blockSize : Nat := 8192

/-- Beginnings of texts. -/
def head : Tool := fun words ↦
  withExtent "head" '-' words fun a e ↦
    withHeadings "head" a fun d ↦ do
      if e.opposite then
        match ← Act.read d with
        | .error fault => return .error fault
        | .ok text => do
          if e.bytes then say (text.take (text.length - e.amount))
          else say (text.take (lengthOfLines ((linesOf text).length - e.amount) 0 text).1)
          return .ok ()
      else
        let front (isAll : Bool) (text : Chars) : Option Nat :=
          if e.bytes then
            if e.amount ≤ text.length || isAll then some (min e.amount text.length) else none
          else
            match lengthOfLines e.amount 0 text with
            | (n, 0) => some n
            | (n, _) => if isAll then some n else none
        match ← readFront d (if e.bytes then some e.amount else none) blockSize front with
        | .error fault => return .error fault
        | .ok text => do
          say text
          return .ok ()

/-- Ends of texts. -/
def tail : Tool := fun words ↦
  withExtent "tail" '+' words fun a e ↦ do
    let status ← withHeadings "tail" a fun d ↦ do
      match ← Act.read d with
      | .error fault => return .error fault
      | .ok text => do
        if e.bytes then
          say (text.drop (if e.opposite then e.amount - 1 else text.length - e.amount))
        else
          let before := if e.opposite then e.amount - 1 else (linesOf text).length - e.amount
          say (withoutLines before text)
        return .ok ()
    if a.has 'f' || a.has 'F' then throw .timeUp else return status

end Tool
end Shell
end FirmwareLane
