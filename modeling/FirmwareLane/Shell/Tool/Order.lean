import FirmwareLane.Shell.Pattern
import FirmwareLane.Shell.Tool.Copy

/-!
# Tools that order lines

Orders of texts — by their bytes, as numbers, as versions — and the tools that sort lines by them,
that find lines which repeat, and that compare sorted files.
-/

set_option autoImplicit false
namespace FirmwareLane
namespace Shell
namespace Tool

open Act

/-! ## Orders of texts -/

/-- The order of texts by their bytes. -/
def compareText (a b : Chars) : Ordering :=
  match a, b with
  | [], [] => .eq
  | [], _ => .lt
  | _, [] => .gt
  | x :: a, y :: b => if x = y then compareText a b else if x < y then .lt else .gt

/-- A decimal number as its sign, its digits before the point without zeros in front, and those
behind it without zeros at the end. -/
structure DecimalText where
  negative : Bool
  whole : Chars
  fraction : Chars

namespace DecimalText

/-- The number at the front of a text behind blanks, and the rest. -/
def read (s : Chars) : DecimalText × Chars :=
  let s := s.dropWhile fun c ↦ c = ' ' || c = '\t' || c = '\n'
  let (negative, t) := match s with
    | '-' :: t => (true, t)
    | t => (false, t)
  let whole := t.takeWhile Char.isDigit
  let (fraction, rest) := match t.drop whole.length with
    | '.' :: rest => (rest.takeWhile Char.isDigit, rest.dropWhile Char.isDigit)
    | rest => ([], rest)
  (⟨negative, whole.dropWhile (· == '0'), (fraction.reverse.dropWhile (· == '0')).reverse⟩, rest)

/-- Whether a number is zero. -/
def isZero (x : DecimalText) : Bool := x.whole.isEmpty && x.fraction.isEmpty

/-- The order of two numbers without their signs. -/
def compareSizes (x y : DecimalText) : Ordering :=
  (compare x.whole.length y.whole.length).then
    ((compareText x.whole y.whole).then (compareText x.fraction y.fraction))

/-- The sign of a number as a number. -/
def sign (x : DecimalText) : Int := if x.isZero then 0 else if x.negative then -1 else 1

/-- The order of two numbers. -/
def order (x y : DecimalText) : Ordering :=
  (Ord.compare x.sign y.sign).then
    (if x.sign < 0 then compareSizes y x else compareSizes x y)

end DecimalText

/-- The rank of a letter that multiplies a number. -/
def unitRank (s : Chars) : Nat :=
  match s.head? with
  | none => 0
  | some c =>
    let c := if c = 'k' then 'K' else c
    match "KMGTPEZY".toList.findIdx? (· == c) with
    | some i => i + 1
    | none => 0

/-- The order of numbers with letters that multiply them. -/
def compareHuman (a b : Chars) : Ordering :=
  let (x, restA) := DecimalText.read a
  let (y, restB) := DecimalText.read b
  let rank (n : DecimalText) (rest : Chars) : Int := n.sign * unitRank rest
  (Ord.compare x.sign y.sign).then
    ((Ord.compare (rank x restA) (rank y restB)).then (x.order y))

/-- A number with a power of ten as an integer with an exponent; nothing if there is no number. -/
def floating? (s : Chars) : Option (Int × Int) :=
  let s := s.dropWhile fun c ↦ c = ' ' || ('\t' ≤ c && c ≤ '\x0d')
  let (negative, t) := match s with
    | '-' :: t => (true, t)
    | '+' :: t => (false, t)
    | t => (false, t)
  let whole := t.takeWhile Char.isDigit
  let (fraction, rest) := match t.drop whole.length with
    | '.' :: rest => (rest.takeWhile Char.isDigit, rest.dropWhile Char.isDigit)
    | rest => ([], rest)
  let exponent : Int := match rest with
    | e :: rest =>
      if e = 'e' ∨ e = 'E' then
        let (down, ds) := match rest with
          | '-' :: ds => (true, ds)
          | '+' :: ds => (false, ds)
          | ds => (false, ds)
        let n : Int := (min ((number? (ds.takeWhile Char.isDigit)).getD 0) 5000 : Nat)
        if down then -n else n
      else 0
    | [] => 0
  (number? (whole ++ fraction)).map fun n ↦
    (if negative then -(n : Int) else n, exponent - fraction.length)

/-- The rank of a text among numbers: no number, no comparable one, the least, one in between, and
the greatest. -/
def floatingRank (s : Chars) : Nat :=
  if (floating? s).isSome then 3
  else
    match Chars.string ((s.dropWhile (· == ' ')).map Char.toLower |>.take 4) with
    | "-inf" => 2
    | t => if "inf".isPrefixOf t || "+inf".isPrefixOf t then 4 else if "nan".isPrefixOf t then 1 else 0

/-- The order of numbers with powers of ten. -/
def compareFloating (a b : Chars) : Ordering :=
  (compare (floatingRank a) (floatingRank b)).then <|
    match floating? a, floating? b with
    | some (m, e), some (n, f) =>
      let least := min e f
      Ord.compare (m * Nat.pow 10 (e - least).toNat) (n * Nat.pow 10 (f - least).toNat)
    | _, _ => .eq

/-- The rank of a character in a version, or of the end of one. -/
def versionRank : Option Char → Int
  | none => -1
  | some c =>
    if c.isDigit then 0
    else if c.isAlpha then c.toNat
    else if c = '~' then -2
    else c.toNat + 256

/-- The order of versions: digits count as numbers, and letters stand before other characters.
Fuel for one step per character. -/
def compareVersionParts : Nat → Chars → Chars → Ordering
  | 0, _, _ => .eq
  | fuel + 1, a, b =>
    let isText (s : Chars) : Bool := s.head?.any fun c ↦ !c.isDigit
    if a.isEmpty && b.isEmpty then .eq
    else if isText a || isText b then
      (Ord.compare (versionRank a.head?) (versionRank b.head?)).then
        (compareVersionParts fuel (a.drop 1) (b.drop 1))
    else
      let digits (s : Chars) : Chars := s.takeWhile Char.isDigit
      let number (s : Chars) : Chars := (digits s).dropWhile (· == '0')
      (compare (number a).length (number b).length).then
        ((compareText (number a) (number b)).then
          (compareVersionParts fuel (a.drop (digits a).length) (b.drop (digits b).length)))

/-- The length of a text without the endings that begin with a point and a letter. -/
def bareLength (s : Chars) : Nat :=
  let rec go : Nat → Chars → Nat
    | 0, s => s.length
    | fuel + 1, s =>
      let back := s.reverse
      let ending := back.takeWhile fun c ↦ c.isAlphanum || c == '~'
      match ending.getLast?, back.drop ending.length with
      | some c, '.' :: front =>
        if (c.isAlpha || c = '~') && !front.isEmpty then go fuel front.reverse else s.length
      | _, _ => s.length
  go s.length s

/-- The order of names with versions in them. -/
def compareVersions (a b : Chars) : Ordering :=
  let rank (s : Chars) : Nat :=
    match s with
    | [] => 0
    | ['.'] => 1
    | ['.', '.'] => 2
    | '.' :: _ => 3
    | _ => 4
  let fuel := a.length + b.length + 1
  (compare (rank a) (rank b)).then
    ((compareVersionParts fuel (a.take (bareLength a)) (b.take (bareLength b))).then
      (compareVersionParts fuel a b))

/-- The number of the month whose name a text begins with. -/
def monthRank (s : Chars) : Nat :=
  let name := ((s.dropWhile fun c ↦ c = ' ' || c = '\t').take 3).map Char.toUpper
  match ["JAN", "FEB", "MAR", "APR", "MAY", "JUN", "JUL", "AUG", "SEP", "OCT", "NOV",
    "DEC"].findIdx? (·.toList == name) with
  | some i => i + 1
  | none => 0

/-! ## Keys -/

/-- By what a part of lines is compared, as the letters of options say. -/
abbrev Flags := Chars

/-- A part of a line by which lines are compared: from a character of a field to one of another. -/
structure SortKey where
  field : Nat
  char : Nat
  lastField : Option Nat
  /-- The number of characters of the last field that belong to the part; all if it is zero. -/
  lastChar : Nat
  skipsBlanks : Bool
  skipsBlanksAtEnd : Bool
  flags : Flags

/-- Whether a character separates fields if nothing else is said to. -/
def isFieldBlank (c : Char) : Bool := c = ' ' || c = '\t' || c = '\n'

/-- A text without its first fields. -/
def withoutFields (separator : Option Char) : Nat → Chars → Chars
  | 0, s => s
  | n + 1, s =>
    match separator with
    | some c => withoutFields separator n ((s.dropWhile (· != c)).drop 1)
    | none =>
      withoutFields separator n ((s.dropWhile isFieldBlank).dropWhile fun c ↦ !isFieldBlank c)

/-- What is left of a text behind its first fields, a separator behind the last one left in place. -/
def behindFields (separator : Option Char) : Nat → Chars → Chars
  | 0, s => s
  | 1, s =>
    match separator with
    | some c => s.dropWhile (· != c)
    | none => (s.dropWhile isFieldBlank).dropWhile fun c ↦ !isFieldBlank c
  | n + 2, s =>
    match separator with
    | some c => behindFields separator (n + 1) ((s.dropWhile (· != c)).drop 1)
    | none =>
      behindFields separator (n + 1)
        ((s.dropWhile isFieldBlank).dropWhile fun c ↦ !isFieldBlank c)

/-- The part of a line that a key names. -/
def SortKey.part (k : SortKey) (separator : Option Char) (line : Chars) : Chars :=
  let start := withoutFields separator k.field line
  let start := if k.skipsBlanks then start.dropWhile isFieldBlank else start
  let start := start.drop k.char
  let finish : Chars := match k.lastField with
    | none => []
    | some n =>
      if k.lastChar = 0 then behindFields separator (n + 1) line
      else
        let last := withoutFields separator n line
        let last := if k.skipsBlanksAtEnd then last.dropWhile isFieldBlank else last
        last.drop k.lastChar
  start.take (start.length - finish.length)

/-- The part of a line with what flags set aside taken out. -/
def normalized (flags : Flags) (s : Chars) : Chars :=
  let s := if flags.contains 'd' then s.filter fun c ↦ c.isAlphanum || c = ' ' || c = '\t'
    else if flags.contains 'i' then s.filter fun c ↦ ' ' ≤ c && c ≤ '~' else s
  if flags.contains 'f' then s.map Char.toUpper else s

/-- How two parts compare by flags. -/
def compareBy (flags : Flags) (a b : Chars) : Ordering :=
  let result :=
    if flags.contains 'n' then (DecimalText.read a).1.order (DecimalText.read b).1
    else if flags.contains 'g' then compareFloating a b
    else if flags.contains 'h' then compareHuman a b
    else if flags.contains 'M' then compare (monthRank a) (monthRank b)
    else
      let x := normalized flags a
      let y := normalized flags b
      if flags.contains 'V' then compareVersions x y else compareText x y
  if flags.contains 'r' then result.swap else result

/-- A line with its parts. -/
structure Row where
  line : Chars
  parts : List Chars

/-- How lines are ordered. -/
structure Order where
  keys : List SortKey
  separator : Option Char
  /-- The flags where no key counts. -/
  flags : Flags
  /-- Whether lines that compare equal are ordered by their bytes. -/
  total : Bool

namespace Order

/-- The row of a line. -/
def row (o : Order) (line : Chars) : Row := ⟨line, o.keys.map fun k ↦ k.part o.separator line⟩

/-- How two rows compare by the keys. -/
def compareKeys : List SortKey → List Chars → List Chars → Ordering
  | k :: keys, a :: as, b :: bs => (compareBy k.flags a b).then (compareKeys keys as bs)
  | _, _, _ => .eq

/-- How two rows compare by what was asked for. -/
def compareAsked (o : Order) (a b : Row) : Ordering := compareKeys o.keys a.parts b.parts

/-- How two rows compare. -/
def compareRows (o : Order) (a b : Row) : Ordering :=
  (o.compareAsked a b).then <|
    if !o.total then .eq
    else if o.flags.contains 'r' then compareText b.line a.line
    else compareText a.line b.line

/-- Whether a row may stand before another one. -/
def precedes (o : Order) (a b : Row) : Bool := o.compareRows a b != .gt

end Order

/-- Why a key makes no sense. -/
inductive KeyFault where
  | zeroField
  | zeroChar
  | stray
  | noNumber (place : String) (text : Chars)
  deriving DecidableEq, Repr

/-- The wording of a fault in a key. -/
def KeyFault.message (key : Chars) : KeyFault → String
  | .zeroField => "field number is zero: invalid field specification '" ++ key.string ++ "'"
  | .zeroChar => "character offset is zero: invalid field specification '" ++ key.string ++ "'"
  | .stray => "stray character in field spec: invalid field specification '" ++ key.string ++ "'"
  | .noNumber place text =>
    "invalid number " ++ place ++ ": invalid count at start of '" ++ text.string ++ "'"

/-- The letters that say how parts are compared. -/
def orderLetters : Chars := "bdfghiMnRrV".toList

/-- The key that a text stands for, with the flags of lines if it has none of its own. -/
def sortKey (usual : Flags) (s : Chars) : Except KeyFault SortKey := do
  let count (place : String) (t : Chars) : Except KeyFault (Nat × Chars) :=
    let ds := t.takeWhile Char.isDigit
    match number? ds with
    | some n => .ok (n, t.drop ds.length)
    | none => .error (.noNumber place t)
  let (field, rest) ← count "at field start" s
  if field = 0 then throw .zeroField
  let (char, rest) ← match rest with
    | '.' :: rest => do
      let (n, rest) ← count "after '.'" rest
      if n = 0 then throw .zeroChar
      pure (n - 1, rest)
    | rest => pure (0, rest)
  let first := rest.takeWhile orderLetters.contains
  let rest := rest.drop first.length
  let (lastField, lastChar, last, rest) ← match rest with
    | ',' :: rest => do
      let (n, rest) ← count "after ','" rest
      if n = 0 then throw .zeroField
      let (c, rest) ← match rest with
        | '.' :: rest => count "after '.'" rest
        | rest => pure (0, rest)
      let letters := rest.takeWhile orderLetters.contains
      pure (some (n - 1), c, letters, rest.drop letters.length)
    | rest => pure (none, 0, [], rest)
  if !rest.isEmpty then throw .stray
  let own := first ++ last
  if own.isEmpty then
    let blanks := usual.contains 'b'
    return ⟨field - 1, char, lastField, lastChar, blanks, blanks, usual⟩
  else
    return ⟨field - 1, char, lastField, lastChar, first.contains 'b', last.contains 'b', own⟩

/-- The letters of flags that cannot be used together; none if they can. -/
def conflicting (flags : Flags) : Chars :=
  let kinds := (("nghM".toList.filter flags.contains).length) +
    (if "VRdi".toList.any flags.contains then 1 else 0)
  if 1 < kinds then "dfghiMnRV".toList.filter flags.contains else []

/-- The first row that must not stand behind the one before it, with its number. -/
def firstDisorder (fine : Row → Row → Bool) : Nat → List Row → Option (Nat × Chars)
  | n, a :: b :: rest =>
    if fine a b then firstDisorder fine (n + 1) (b :: rest) else some (n, b.line)
  | _, _ => none

/-- The options of `sort`. -/
def sortOptions : Options :=
  ⟨"nrufsbdgihMVRcCmz", "ktoST",
    [("reverse", 'r'), ("unique", 'u'), ("numeric-sort", 'n'), ("key", 'k'),
      ("field-separator", 't'), ("output", 'o'), ("check", 'c'), ("stable", 's'),
      ("ignore-case", 'f'), ("ignore-leading-blanks", 'b'), ("dictionary-order", 'd'),
      ("general-numeric-sort", 'g'), ("human-numeric-sort", 'h'), ("ignore-nonprinting", 'i'),
      ("month-sort", 'M'), ("version-sort", 'V'), ("merge", 'm'), ("zero-terminated", 'z')]⟩

/-- The order that options ask for, or what is wrong with them. -/
def orderOf (a : Arguments) : Except String Order := do
  let flags := orderLetters.filter a.has
  let keys ← (a.values 'k').mapM fun k ↦
    (sortKey flags k).mapError fun fault ↦ fault.message k
  let separator ← match a.value? 't' with
    | none => pure none
    | some [] => throw "empty tab"
    | some [c] => pure (some c)
    | some ['\\', '0'] => pure (some '\x00')
    | some s => throw ("multi-character tab '" ++ s.string ++ "'")
  let whole : SortKey :=
    ⟨0, 0, none, 0, flags.contains 'b', false, flags⟩
  for f in flags :: keys.map (·.flags) do
    unless (conflicting f).isEmpty do
      throw ("options '-" ++ Chars.string (conflicting f) ++ "' are incompatible")
  return ⟨if keys.isEmpty then [whole] else keys, separator, flags, !(a.has 's' || a.has 'u')⟩

/-- Runs of elements that are alike. -/
def runs {α : Type} (same : α → α → Bool) (xs : List α) : List (List α) :=
  xs.foldr (fun a found ↦
    match found with
    | (b :: bs) :: more => if same a b then (a :: b :: bs) :: more else [a] :: (b :: bs) :: more
    | found => [a] :: found) []

/-- Sorts lines.  Of lines that count as one the first is left. -/
def sort : Tool := fun words ↦
  withArgumentsOr 2 "sort" sortOptions words fun a ↦ do
    let fault (text : String) : Act Nat := do
      complain "sort" text
      return 2
    match orderOf a with
    | .error text => fault text
    | .ok o =>
      let checks := a.has 'c' || a.has 'C'
      let names := inputNames a.operands
      let mut texts : List Chars := []
      if a.has 'c' && a.has 'C' then return ← fault "options '-cC' are incompatible"
      if checks && a.has 'o' then
        return ← fault ("options '-" ++ (if a.has 'C' then "C" else "c") ++ "o' are incompatible")
      if checks then
        if let some w := a.operands[1]? then
          return ← fault ("extra operand '" ++ Chars.string w ++ "' not allowed with -" ++
            if a.has 'C' then "C" else "c")
      for name in names do
        match ← whole name with
        | .ok text => texts := text :: texts
        | .error .isDirectory =>
          return ← fault ("read failed: " ++ Chars.string name ++ ": " ++
            Files.Fault.isDirectory.reason)
        | .error f => return ← fault ("cannot read: " ++ Chars.string name ++ ": " ++ f.reason)
      let mark := if a.has 'z' then '\x00' else '\n'
      let linesIn (text : Chars) : List Chars :=
        let all := pieces mark text
        if all.getLast? = some [] then all.dropLast else all
      let files := texts.reverse.map fun text ↦ (linesIn text).map o.row
      let rows := files.flatten
      if checks then
        let fine (x y : Row) : Bool :=
          if a.has 'u' then o.compareAsked x y == .lt else o.precedes x y
        match firstDisorder fine 2 rows with
        | none => return 0
        | some (n, line) =>
          unless a.has 'C' do
            complain "sort" (Chars.string ((names.head?).getD ['-']) ++ ":" ++
              Chars.string (number n) ++ ": disorder: " ++ line.string)
          return 1
      else
        let sorted := if a.has 'm' then files.foldl (fun x y ↦ List.merge x y o.precedes) []
          else rows.mergeSort o.precedes
        let sorted := if a.has 'u' then
            (runs (fun x y ↦ o.compareAsked x y == .eq) sorted).flatMap (List.take 1)
          else sorted
        let text := sorted.flatMap fun r ↦ r.line ++ [mark]
        match a.value? 'o' with
        | none => do
          say text
          return 0
        | some name =>
          match ← writeFile name text with
          | .ok () => return 0
          | .error f => fault ("open failed: " ++ Chars.string name ++ ": " ++ f.reason)

/-! ## Repetitions -/

/-- The part of a line that `uniq` compares. -/
def comparedPart (a : Arguments) (line : Chars) : Chars :=
  let count (letter : Char) : Option Nat := (a.value? letter).bind number?
  let isBlank (c : Char) : Bool := c = ' ' || c = '\t'
  let rec skip : Nat → Chars → Chars
    | 0, s => s
    | n + 1, s => skip n ((s.dropWhile isBlank).dropWhile fun c ↦ !isBlank c)
  let s := (skip ((count 'f').getD 0) line).drop ((count 's').getD 0)
  let s := s.take ((count 'w').getD s.length)
  if a.has 'i' then s.map Char.toUpper else s

/-- What is printed of a run of lines that are alike; the first run has a mark. -/
def shownRun (a : Arguments) (first : Bool) (run : List Chars) : List Chars :=
  let n := run.length
  let separated := match a.value? 'D' with
    | some how => if how = "prepend".toList then true else how = "separate".toList && !first
    | none => false
  if a.has 'D' then
    if 1 < n && !a.has 'u' then (if separated then [[]] else []) ++ run else []
  else if (a.has 'd' && n ≤ 1) || (a.has 'u' && 1 < n) then []
  else
    (run.take 1).map fun line ↦ if a.has 'c' then padded 7 n ++ ' ' :: line else line

/-- The options of `uniq` with the values of those whose values may be missing. -/
def uniqWords (words : List Chars) : List Chars :=
  words.flatMap fun w ↦
    if w = "-D".toList ∨ w = "--all-repeated".toList then ["-D".toList, "none".toList]
    else if w = "-cD".toList then ["-c".toList, "-D".toList, "none".toList]
    else if w = "--group".toList then ["-g".toList, "separate".toList]
    else [w]

/-- Leaves one line of every run of lines that are alike. -/
def uniq : Tool := fun words ↦
  withArguments "uniq"
    ⟨"cduiz", "fswDg",
      [("count", 'c'), ("repeated", 'd'), ("unique", 'u'), ("ignore-case", 'i'),
        ("skip-fields", 'f'), ("skip-chars", 's'), ("check-chars", 'w'), ("all-repeated", 'D'),
        ("group", 'g')]⟩ (uniqWords words)
    fun a ↦ do
      let wrong := [('f', "fields to skip"), ('s', "bytes to skip"), ('w', "bytes to compare")].find?
        fun (letter, _) ↦ (a.value? letter).any fun s ↦ (number? s).isNone
      if let some (letter, what) := wrong then
        complain "uniq" (Chars.string ((a.value? letter).getD []) ++ ": invalid number of " ++ what)
        return 1
      if let some w := a.operands[2]? then
        return ← misused "uniq" ("extra operand '" ++ Chars.string w ++ "'")
      if a.has 'c' && a.has 'D' then
        return ← misused "uniq" "printing all duplicated lines and repeat counts is meaningless"
      let name := (a.operands.head?).getD ['-']
      match ← contents name with
      | .error .isDirectory => do
        complain "uniq" ("error reading '" ++ name.string ++ "': " ++
          Files.Fault.isDirectory.reason)
        return 1
      | .error fault => do
        complainOf "uniq" name fault
        return 1
      | .ok (text, more) => do
        let found := (runs (fun x y ↦ x.2 == y.2)
          ((linesOf text).map fun l ↦ (l, comparedPart a l))).map fun run ↦ run.map (·.1)
        let found := if more then found.dropLast else found
        let grouped := found.zipIdx.flatMap fun (run, i) ↦ (if i = 0 then [] else [[]]) ++ run
        let shown := (found.foldl (fun (out, first) run ↦
          let lines := shownRun a first run
          (lines.reverse ++ out, first && lines.isEmpty)) (([] : List Chars), true)).1.reverse
        let result := unlines (if a.has 'g' then grouped else shown)
        match a.operands[1]? with
        | none => do
          say result
          endWith more 0
        | some out => do
          if let .error fault ← writeFile out result then
            complainOf "uniq" out fault
            return 1
          endWith more 0

/-! ## Sorted files -/

/-- The lines of two sorted lists with the number of the column for each: those of the first list,
those of the second one, and those of both; fuel for one step per line. -/
def columnsOf : Nat → List Chars → List Chars → List (Nat × Chars)
  | 0, _, _ => []
  | _, [], bs => bs.map fun b ↦ (1, b)
  | _, as, [] => as.map fun a ↦ (0, a)
  | fuel + 1, a :: as, b :: bs =>
    match compareText a b with
    | .eq => (2, a) :: columnsOf fuel as bs
    | .lt => (0, a) :: columnsOf fuel as (b :: bs)
    | .gt => (1, b) :: columnsOf fuel (a :: as) bs

/-- Tells which lines two sorted files share. -/
def comm : Tool := fun words ↦
  withArguments "comm"
    ⟨"123ztx", "o",
      [("output-delimiter", 'o'), ("total", 't'), ("check-order", 'x'), ("nocheck-order", 'x')]⟩
    words fun a ↦
    match a.operands with
    | [x, y] => do
      match ← whole x, ← whole y with
      | .ok s, .ok t => do
        let (as, bs) := (linesOf s, linesOf t)
        let hidden := [a.has '1', a.has '2', a.has '3']
        let separator := (a.value? 'o').getD ['\t']
        let rows := columnsOf (as.length + bs.length + 1) as bs
        for (column, line) in rows do
          let marks := (hidden.take column).count false
          unless (hidden[column]?).getD false do
            say ((List.replicate marks separator).flatten ++ line ++ ['\n'])
        if a.has 't' then
          let counts := (List.range 3).map fun c ↦ number (rows.countP fun r ↦ r.1 == c)
          say (joinWith separator (counts ++ ["total".toList]) ++ ['\n'])
        let isSorted (ls : List Chars) : Bool :=
          (ls.zip (ls.drop 1)).all fun (p, q) ↦ compareText p q != .gt
        if a.has 'x' || as == bs || (isSorted as && isSorted bs) then return 0
        else
          unless isSorted as do complain "comm" "file 1 is not in sorted order"
          unless isSorted bs do complain "comm" "file 2 is not in sorted order"
          complain "comm" "input is not in sorted order"
          return 1
      | .error fault, _ => do
        complainOf "comm" x fault
        return 1
      | _, .error fault => do
        complainOf "comm" y fault
        return 1
    | [] => misused "comm" "missing operand"
    | [x] => misused "comm" ("missing operand after '" ++ x.string ++ "'")
    | _ :: _ :: w :: _ => misused "comm" ("extra operand '" ++ w.string ++ "'")

end Tool
end Shell
end FirmwareLane
