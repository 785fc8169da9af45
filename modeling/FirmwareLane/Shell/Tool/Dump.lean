import FirmwareLane.Shell.Tool.Copy
import FirmwareLane.Text.Base64

/-!
# Tools that show bytes as text

Tools that show the bytes of texts as numbers or names, or in letters that any channel carries, and
that read the bytes back.
-/

set_option autoImplicit false
namespace FirmwareLane
namespace Shell
namespace Tool

open Act

/-! ## Dumps -/

/-- How the bytes of a block are shown. -/
inductive DumpKind where
  | characters
  /-- The names of characters of seven bits. -/
  | names
  | number (base : Nat) (isSigned : Bool)
  deriving DecidableEq, Repr

/-- A format of a dump: how so many bytes at once are shown, and whether the characters follow. -/
structure DumpFormat where
  kind : DumpKind
  size : Nat
  withText : Bool

/-- A character as it is shown in a dump of characters. -/
def shownCharacter (c : Char) : Chars :=
  match c with
  | '\x00' => "\\0".toList
  | '\x07' => "\\a".toList
  | '\x08' => "\\b".toList
  | '\t' => "\\t".toList
  | '\n' => "\\n".toList
  | '\x0b' => "\\v".toList
  | '\x0c' => "\\f".toList
  | '\r' => "\\r".toList
  | c => if ' ' ≤ c ∧ c ≤ '~' then [c] else Text.Numeral.writePadded 8 3 c.toNat

/-- The names of the characters below the blank, and of the blank. -/
def controlNames : List String :=
  ["nul", "soh", "stx", "etx", "eot", "enq", "ack", "bel", "bs", "ht", "nl", "vt", "ff", "cr", "so",
   "si", "dle", "dc1", "dc2", "dc3", "dc4", "nak", "syn", "etb", "can", "em", "sub", "esc", "fs",
   "gs", "rs", "us", "sp"]

/-- The name of a character of seven bits. -/
def nameOf (c : Char) : Chars :=
  let n := c.toNat % 128
  match controlNames[n]? with
  | some name => name.toList
  | none => if n = 127 then "del".toList else [Char.ofNat n]

namespace DumpFormat

/-- The number of characters that the longest field has. -/
def width (f : DumpFormat) : Nat :=
  match f.kind with
  | .number 10 true => (number (Nat.pow 256 f.size / 2)).length + 1
  | .number base _ => (Text.Numeral.write base (Nat.pow 256 f.size - 1)).length
  | _ => 3

/-- The field that bytes make, the lowest of a number first. -/
def field (f : DumpFormat) (bytes : Chars) : Chars :=
  let n : Nat := bytes.foldr (fun c n ↦ n * 256 + c.toNat) 0
  match f.kind with
  | .characters => bytes.flatMap shownCharacter
  | .names => bytes.flatMap nameOf
  | .number 10 isSigned =>
    if isSigned && Nat.pow 256 f.size ≤ 2 * n then '-' :: number (Nat.pow 256 f.size - n) else number n
  | .number base _ => Text.Numeral.writePadded base f.width n

/-- The text of a block in which all fields of a line take so many characters. -/
def line (f : DumpFormat) (lineBytes lineWidth : Nat) (block : Chars) : Chars :=
  let count := lineBytes / f.size
  let room := lineWidth - count * f.width
  let groups := (List.range ((block.length + f.size - 1) / f.size)).map fun i ↦
    (block.drop (i * f.size)).take f.size
  let fields := groups.zipIdx.flatMap fun (bytes, i) ↦
    let gap := room * (count - i) / count - room * (count - i - 1) / count
    paddedText (gap + f.width) (f.field bytes)
  if f.withText then
    let missing := (lineBytes - block.length) / f.size * (f.width + 1)
    fields ++ List.replicate missing ' ' ++ "  >".toList ++
      block.map (fun c ↦ if ' ' ≤ c ∧ c ≤ '~' then c else '.') ++ ['<']
  else fields

end DumpFormat

/-- Why letters name no format. -/
inductive FormatFault where
  | unknown (letter : Char)
  | badSize (size : Nat)
  deriving DecidableEq, Repr

/-- The wording of a fault in a text. -/
def FormatFault.message (text : Chars) : FormatFault → String
  | .unknown c =>
    "invalid character '" ++ Chars.string [c] ++ "' in type string '" ++ text.string ++ "'"
  | .badSize n =>
    "invalid type string '" ++ text.string ++ "';\nthis system doesn't provide a " ++
      (number n).string ++ "-byte integral type"

/-- The sizes of numbers that letters name. -/
def sizeLetters : List (Char × Nat) := [('C', 1), ('S', 2), ('I', 4), ('L', 8)]

/-- The formats that letters name; fuel for one step per format. -/
def dumpFormats : Nat → Chars → Except FormatFault (List DumpFormat)
  | 0, _ => .ok []
  | _, [] => .ok []
  | fuel + 1, c :: rest => do
    let numeric : Option DumpKind := match c with
      | 'd' => some (.number 10 true)
      | 'u' => some (.number 10 false)
      | 'o' => some (.number 8 false)
      | 'x' => some (.number 16 false)
      | _ => none
    let (kind, size, rest) ← match numeric with
      | some kind =>
        let digits := rest.takeWhile Char.isDigit
        match number? digits, (rest.head?).bind fun l ↦ sizeLetters.lookup l with
        | some n, _ =>
          if [1, 2, 4, 8].contains n then pure (kind, n, rest.drop digits.length)
          else throw (.badSize n)
        | none, some n => pure (kind, n, rest.drop 1)
        | none, none => pure (kind, 4, rest)
      | none =>
        if c = 'c' then pure (.characters, 1, rest)
        else if c = 'a' then pure (.names, 1, rest)
        else throw (.unknown c)
    let (withText, rest) := match rest with
      | 'z' :: rest => (true, rest)
      | rest => (false, rest)
    return ⟨kind, size, withText⟩ :: (← dumpFormats fuel rest)

/-- The formats that options by themselves stand for. -/
def formatLetters : List (Char × String) :=
  [('a', "a"), ('b', "o1"), ('c', "c"), ('d', "u2"), ('D', "u4"), ('H', "x4"), ('h', "x2"),
   ('i', "d4"), ('I', "d8"), ('l', "d8"), ('L', "d8"), ('o', "o2"), ('O', "o4"), ('s', "d2"),
   ('x', "x2"), ('X', "x4")]

/-- A dump: its formats, the bytes of a line, and how addresses are written: to a base in so many
digits, or not at all. -/
structure Dump where
  formats : List DumpFormat
  lineBytes : Nat
  address : Option (Nat × Nat)
  /-- Whether lines that repeat the one before them are shown. -/
  all : Bool

namespace Dump

/-- An address as it is written. -/
def addressText (x : Dump) (n : Nat) : Chars :=
  match x.address with
  | some (base, width) => Text.Numeral.writePadded base width n
  | none => []

/-- The number of characters in which the fields of a line are. -/
def lineWidth (x : Dump) : Nat :=
  x.formats.foldl (fun n f ↦ max n ((f.width + 1) * (x.lineBytes / f.size))) 0

/-- The lines of a block at an address. -/
def blockLines (x : Dump) (at_ : Nat) (block : Chars) : List Chars :=
  x.formats.zipIdx.map fun (f, i) ↦
    let start := x.addressText at_
    (if i = 0 then start else List.replicate start.length ' ') ++
      f.line x.lineBytes x.lineWidth block

/-- The lines of blocks from an address on, behind a block.  A mark tells whether the place of blocks
that repeat the one before them is marked. -/
def lines (x : Dump) : Nat → Option Chars → Bool → List Chars → List Chars
  | at_, _, _, [] => if x.address.isNone then [] else [x.addressText at_]
  | at_, last, marked, block :: rest =>
    let next := at_ + block.length
    if !x.all && last == some block && block.length == x.lineBytes then
      (if marked then [] else [['*']]) ++ lines x next last true rest
    else x.blockLines at_ block ++ lines x next (some block) false rest

end Dump

/-- A text in pieces of so many characters, the last of which may be shorter; fuel for one step per
piece. -/
def wrapped (width : Nat) : Nat → Chars → List Chars
  | 0, _ => []
  | _, [] => []
  | fuel + 1, s => s.take width :: wrapped width fuel (s.drop width)

/-- The options of `od`. -/
def dumpOptions : Options :=
  ⟨"vabcdDhHiIlLoOsxXw?", "AtNjS",
    [("output-duplicates", 'v'), ("address-radix", 'A'), ("format", 't'), ("read-bytes", 'N'),
      ("skip-bytes", 'j'), ("width", 'w')]⟩

/-- The text behind the options that ask for formats, as letters. -/
def askedFormats (a : Arguments) : List Chars :=
  a.options.filterMap fun (c, value) ↦
    if c = 't' then some value else (formatLetters.lookup c).map String.toList

/-- The dump that options ask for, or what is wrong with them. -/
def dumpOf (a : Arguments) : Except String Dump := do
  let asked := askedFormats a
  let mut formats : List DumpFormat := []
  for text in asked do
    match dumpFormats (text.length + 1) text with
    | .ok fs => formats := formats ++ fs
    | .error fault => throw (fault.message text)
  let address ← match a.value? 'A' with
    | none => pure (some (8, 7))
    | some ('o' :: _) => pure (some (8, 7))
    | some ('d' :: _) => pure (some (10, 7))
    | some ('x' :: _) => pure (some (16, 6))
    | some ('n' :: _) => pure none
    | some s => throw ("invalid output address radix '" ++ Chars.string (s.take 1) ++
        "'; it must be one character from [doxn]")
  if formats.isEmpty then formats := [⟨.number 8 false, 2, false⟩]
  let lineBytes := match a.value? 'w' with
    | some w => if w.isEmpty then 32 else max 1 ((amount? w).getD 16)
    | none => 16
  return ⟨formats, lineBytes, address, a.has 'v'⟩

/-- Shows the bytes of texts. -/
def od : Tool := fun words ↦
  withArguments "od" dumpOptions words fun a ↦ do
    match dumpOf a, "Nj".toList.find? fun c ↦ (a.value? c).any fun v ↦ (amount? v).isNone with
    | .error fault, _ => do
      complain "od" fault
      return 1
    | .ok _, some c => do
      complain "od" ("invalid -" ++ Chars.string [c] ++ " argument '" ++
        Chars.string ((a.value? c).getD []) ++ "'")
      return 1
    | .ok x, none => do
      let start := ((a.value? 'j').bind amount?).getD 0
      let most := (a.value? 'N').bind amount?
      let mut text : Chars := []
      let mut status := 0
      for name in inputNames a.operands do
        let wanted := most.map fun n ↦ start + n - text.length
        let front (isAll : Bool) (s : Chars) : Option Nat :=
          match wanted with
          | some n => if n ≤ s.length || isAll then some (min n s.length) else none
          | none => if isAll then some s.length else none
        match ← reading name fun d ↦ readFront d wanted 1 front with
        | .ok s => text := text ++ s
        | .error fault =>
          complain "od" (name.string ++ ": " ++
            (if fault = .isDirectory then "read error: " else "") ++ fault.reason)
          status := 1
      if text.length < start then
        complain "od" "cannot skip past end of combined input"
        return 1
      let shown := (text.drop start).take (most.getD text.length)
      unless shown.isEmpty && status != 0 do
        say (unlines (x.lines start none false (wrapped x.lineBytes (shown.length + 1) shown)))
      return status

/-! ## Letters -/

/-- The bytes of a text in 64 letters up to what is no letter, and whether all of it was read. -/
def decodedBytes : Nat → Text.Bytes → Text.Bytes × Bool
  | 0, _ => ([], false)
  | _, [] => ([], true)
  | fuel + 1, a :: b :: c :: d :: rest =>
    let value (x : UInt8) : Option Nat := Text.Base64.value? x
    let pad := Text.Base64.pad
    match value a, value b, value c, value d with
    | some a, some b, some c, some d =>
      let (more, fine) := decodedBytes fuel rest
      (UInt8.ofNat (a * 4 + b / 16) :: UInt8.ofNat (b % 16 * 16 + c / 4) ::
        UInt8.ofNat (c % 4 * 64 + d) :: more, fine)
    | some a, some b, some c, none =>
      let bytes := [UInt8.ofNat (a * 4 + b / 16), UInt8.ofNat (b % 16 * 16 + c / 4)]
      if d = pad then
        let (more, fine) := decodedBytes fuel rest
        (bytes ++ more, fine)
      else (bytes, false)
    | some a, some b, none, _ =>
      let bytes := [UInt8.ofNat (a * 4 + b / 16)]
      if c = pad && d = pad then
        let (more, fine) := decodedBytes fuel rest
        (bytes ++ more, fine)
      else (bytes, false)
    | _, _, _, _ => ([], false)
  | _, rest =>
    match rest.map Text.Base64.value? with
    | some a :: some b :: some c :: _ =>
      ([UInt8.ofNat (a * 4 + b / 16), UInt8.ofNat (b % 16 * 16 + c / 4)], false)
    | some a :: some b :: _ => ([UInt8.ofNat (a * 4 + b / 16)], false)
    | _ => ([], false)

/-- Writes bytes in 64 letters, or reads them. -/
def base64 : Tool := fun words ↦
  withArguments "base64" ⟨"di", "w", [("decode", 'd'), ("ignore-garbage", 'i'), ("wrap", 'w')]⟩ words
    fun a ↦ do
    match a.operands, ((a.value? 'w').map number?).getD (some 76) with
    | _ :: extra :: _, _ => misused "base64" ("extra operand '" ++ extra.string ++ "'")
    | _, none => do
      complain "base64" ("invalid wrap size: '" ++ Chars.string ((a.value? 'w').getD []) ++ "'")
      return 1
    | operands, some width => do
      match ← whole ((operands.head?).getD ['-']) with
      | .error .isDirectory => do
        complain "base64" ("read error: " ++ Files.Fault.isDirectory.reason)
        return 1
      | .error fault => do
        complainOf "base64" ((operands.head?).getD []) fault
        return 1
      | .ok text =>
        if a.has 'd' then
          let isLetter (x : UInt8) : Bool :=
            (Text.Base64.value? x).isSome || x = Text.Base64.pad
          let bytes := Chars.toBytes (text.filter (· != '\n'))
          let bytes := if a.has 'i' then bytes.filter isLetter else bytes
          let (found, fine) := decodedBytes (bytes.length + 1) bytes
          say (Chars.ofBytes found)
          if fine then return 0
          else
            complain "base64" "invalid input"
            return 1
        else
          let code := Text.Base64.encode (Chars.toBytes text)
          if width = 0 then say code
          else say (unlines (wrapped width (code.length + 1) code))
          return 0

end Tool
end Shell
end FirmwareLane
