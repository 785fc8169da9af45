import FirmwareLane.Digest.Older
import FirmwareLane.Digest.Sha2
import FirmwareLane.Shell.Tool.Listing

/-!
# Tools that sum texts up

Tools that count what texts hold, that compute check sums of texts, and that compare texts with check
sums in a list.
-/

set_option autoImplicit false
namespace FirmwareLane
namespace Shell
namespace Tool

open Act

/-! ## Counts -/

/-- What is counted in a text. -/
structure Counts where
  lines : Nat
  words : Nat
  bytes : Nat
  /-- The length of the longest line, and the length of the last one so far. -/
  longest : Nat
  column : Nat
  inWord : Bool

/-- The counts of nothing. -/
def Counts.zero : Counts := ⟨0, 0, 0, 0, 0, false⟩

/-- The counts with one more character. -/
def Counts.add (n : Counts) (c : Char) : Counts :=
  let isBlank := c = ' ' || ('\t' ≤ c && c ≤ '\r')
  let column :=
    if c = '\n' || c = '\r' || c = '\x0c' then 0
    else if c = '\t' then n.column / 8 * 8 + 8
    else if ' ' ≤ c && c ≤ '~' then n.column + 1
    else n.column
  { lines := if c = '\n' then n.lines + 1 else n.lines
    words := if !isBlank && !n.inWord then n.words + 1 else n.words
    bytes := n.bytes + 1
    longest := max n.longest column
    column
    inWord := !isBlank }

/-- The counts of a text. -/
def Counts.ofText (s : Chars) : Counts := s.foldl Counts.add .zero

/-- The counts of texts together. -/
def Counts.plus (m n : Counts) : Counts :=
  { m with
    lines := m.lines + n.lines
    words := m.words + n.words
    bytes := m.bytes + n.bytes
    longest := max m.longest n.longest }

/-- The letters of the options that say what is counted. -/
def countLetters : Chars := "lwmcL".toList

/-- The counts that options ask for. -/
def Counts.asked (n : Counts) (a : Arguments) : List Nat :=
  let letters := countLetters.filter a.has
  (if letters.isEmpty then "lwc".toList else letters).map fun c ↦
    if c = 'l' then n.lines else if c = 'w' then n.words else if c = 'L' then n.longest else n.bytes

/-- The sizes of the files of names, which are nothing for what is no file. -/
def sizesOf (names : List Chars) : Act (List (Option (Option Nat))) :=
  names.mapM fun name ↦ do
    match inputNamed? name with
    | some _ =>
      match ← stream? 0 with
      | some (_, .file identity place ..) =>
        return some (some (bytesOf (← get) identity place).length)
      | _ => return some none
    | none =>
      match (← files).node name.string with
      | .ok node => return some (if node.isFile then some node.bytes.length else none)
      | .error _ => return none

/-- The width of counts of files of these names. -/
def countWidth (a : Arguments) (names : List Chars) : Act Nat := do
  let kinds := (countLetters.filter a.has).length
  if names.length = 1 && kinds = 1 then return 1
  else
    let sizes := (← sizesOf names).filterMap fun s ↦ s
    let total := sizes.foldl (fun n s ↦ n + s.getD 0) 0
    return max (number total).length (if sizes.any (·.isNone) then 7 else 1)

/-- Counts lines, words and bytes. -/
def wc : Tool := fun words ↦
  withArguments "wc"
    ⟨"lwcmL", "t",
      [("lines", 'l'), ("words", 'w'), ("bytes", 'c'), ("chars", 'm'), ("max-line-length", 'L'),
        ("total", 't')]⟩ words fun a ↦ do
    let names := inputNames a.operands
    let width ← countWidth a names
    let row (n : Counts) (name : Chars) : Act Unit :=
      say (joinWith [' '] ((n.asked a).map (padded width)) ++
        (if name.isEmpty then [] else ' ' :: name) ++ ['\n'])
    let mut total := Counts.zero
    let mut status := 0
    for name in names do
      let shown := if a.operands.isEmpty then [] else name
      match ← whole name with
      | .ok text =>
        let n := Counts.ofText text
        row n shown
        total := total.plus n
      | .error fault =>
        complainOf "wc" name fault
        if fault = .isDirectory then row .zero shown
        status := 1
    let when_ := (a.value? 't').getD "auto".toList
    if when_ = "always".toList || (when_ != "never".toList && names.length > 1) then
      row total "total".toList
    return status

/-! ## Check sums -/

/-- The remainder of a polynomial that a byte was shifted into. -/
def crcStep (crc : UInt32) (byte : UInt32) : UInt32 :=
  (List.range 8).foldl
    (fun c _ ↦ if c &&& 0x80000000 != 0 then (c <<< 1) ^^^ 0x04C11DB7 else c <<< 1)
    (crc ^^^ (byte <<< 24))

/-- The bytes of a length, the lowest first, without zeros at the end; fuel for one step per
byte. -/
def lengthBytes : Nat → Nat → List UInt32
  | 0, _ => []
  | fuel + 1, n => if n = 0 then [] else UInt32.ofNat (n % 256) :: lengthBytes fuel (n / 256)

/-- The check sum of a text. -/
def checkSum (s : Chars) : Nat :=
  let crc := s.foldl (fun c x ↦ crcStep c (UInt32.ofNat x.toNat)) 0
  (~~~ ((lengthBytes 8 s.length).foldl crcStep crc)).toNat

/-- Shows check sums of texts. -/
def cksum : Tool := fun words ↦
  withArguments "cksum" ⟨"", "", []⟩ words fun a ↦
    eachText "cksum" a.operands fun name text ↦
      say (number (checkSum text) ++ ' ' :: number text.length ++
        (if a.operands.isEmpty then [] else ' ' :: name) ++ ['\n'])

/-- A kind of digest: its name, and the hexadecimal digits of the digest of bytes. -/
structure DigestKind where
  name : String
  hex : Text.Bytes → String

/-- A name as it is written in a list of digests, and whether a mark before the line says that it is
escaped. -/
def escapedName (name : Chars) : Chars × Bool :=
  let escaped := name.flatMap fun c ↦
    if c = '\\' then "\\\\".toList else if c = '\n' then "\\n".toList
    else if c = '\r' then "\\r".toList else [c]
  (escaped, escaped != name)

/-- A line of a list of digests. -/
def digestLine (kind : DigestKind) (a : Arguments) (name text : Chars) : Chars :=
  let hex := (kind.hex (Chars.toBytes text)).toList
  let (shown, isEscaped) := if a.has 'z' then (name, false) else escapedName name
  (if isEscaped then ['\\'] else []) ++
    (if a.has 'T' then kind.name.toList ++ " (".toList ++ shown ++ ") = ".toList ++ hex
      else hex ++ (if a.has 'b' then " *" else "  ").toList ++ shown) ++
    [if a.has 'z' then '\x00' else '\n']

/-- The digest and the name in a line of a list. -/
def listedDigest? (kind : DigestKind) (line : Chars) : Option (Chars × Chars) :=
  let length := (kind.hex []).length
  let isDigest (s : Chars) : Bool :=
    s.length == length && s.all fun c ↦ c.isDigit || ('a' ≤ c.toLower && c.toLower ≤ 'f')
  match without? (kind.name.toList ++ " (".toList) line with
  | some rest =>
    let digest := rest.drop (rest.length - length)
    let name := rest.take (rest.length - length - 4)
    if isDigest digest && (rest.drop name.length).take 4 == ") = ".toList then some (digest, name)
    else none
  | none =>
    let line := line.dropWhile fun c ↦ c = ' ' || c = '\t'
    let digest := line.take length
    match line.drop length with
    | ' ' :: mark :: name =>
      if isDigest digest && (mark = ' ' || mark = '*') && !name.isEmpty then some (digest, name)
      else none
    | _ => none

/-- What was found by comparing files with a list. -/
structure Comparison where
  verified : Nat
  different : Nat
  unreadable : Nat
  malformed : Nat

/-- Compares the files that a list names with their digests there. -/
def compareListed (program : String) (kind : DigestKind) (a : Arguments) (list : Chars)
    (lines : List Chars) : Act Comparison := do
  let mut found : Comparison := ⟨0, 0, 0, 0⟩
  for (line, i) in lines.zipIdx do
    unless line.head? = some '#' do
      match listedDigest? kind line with
      | none =>
        if a.has 'w' then
          complain program (list.string ++ ": " ++ Chars.string (number (i + 1)) ++
            ": improperly formatted " ++ kind.name ++ " checksum line")
        found := { found with malformed := found.malformed + 1 }
      | some (digest, name) =>
        match ← whole name with
        | .error fault =>
          unless a.has 'i' && fault = .notFound do
            complainOf program name fault
            unless a.has 's' do say (name ++ ": FAILED open or read\n".toList)
            found := { found with unreadable := found.unreadable + 1 }
        | .ok text =>
          let same := (kind.hex (Chars.toBytes text)).toList == digest.map Char.toLower
          unless a.has 's' || (same && a.has 'q') do
            say (name ++ (if same then ": OK\n" else ": FAILED\n").toList)
          found := { found with
            verified := found.verified + 1
            different := if same then found.different else found.different + 1 }
  return found

/-- What is said of a number of things, in the singular or in the plural. -/
def counted (n : Nat) (one many : String) : String :=
  "WARNING: " ++ (number n).string ++ " " ++ if n = 1 then one else many

/-- Compares the files that a list names with their digests there, and tells whether all are the
same. -/
def checkList (program : String) (kind : DigestKind) (a : Arguments) (list : Chars) : Act Bool := do
  let shown : Chars := if list = ['-'] then "'standard input'".toList else list
  match ← whole list with
  | .error fault => do
    complain program (shown.string ++ ": " ++
      if fault = .isDirectory then "read error" else fault.reason)
    return false
  | .ok text => do
    let found ← compareListed program kind a shown (linesOf text)
    if found.verified + found.unreadable = 0 && found.malformed = (linesOf text).length then
      complain program (shown.string ++ ": no properly formatted checksum lines found")
      return false
    unless a.has 's' do
      if 0 < found.malformed then
        complain program (counted found.malformed "line is improperly formatted"
          "lines are improperly formatted")
      if 0 < found.unreadable then
        complain program (counted found.unreadable "listed file could not be read"
          "listed files could not be read")
      if 0 < found.different then
        complain program (counted found.different "computed checksum did NOT match"
          "computed checksums did NOT match")
      if a.has 'i' && found.verified = 0 then
        complain program (shown.string ++ ": no file was verified")
    return found.different + found.unreadable = 0 && !(a.has 'i' && found.verified = 0) &&
      !(a.has 'S' && 0 < found.malformed)

/-- Shows digests of files, or compares files with the digests in a list. -/
def digests (program : String) (kind : DigestKind) : Tool := fun words ↦
  withArguments program
    ⟨"bctwzqsSiT", "",
      [("binary", 'b'), ("check", 'c'), ("text", 't'), ("warn", 'w'), ("zero", 'z'),
        ("quiet", 'q'), ("status", 's'), ("strict", 'S'), ("ignore-missing", 'i'), ("tag", 'T')]⟩
    words fun a ↦ do
    if a.has 'c' then each (inputNames a.operands) (checkList program kind a)
    else
      match [('i', "ignore-missing"), ('s', "status"), ('w', "warn"), ('q', "quiet"),
          ('S', "strict")].find? fun o ↦ a.has o.1 with
      | some (_, name) =>
        misused program ("the --" ++ name ++ " option is meaningful only when verifying checksums")
      | none => eachText program a.operands fun name text ↦ say (digestLine kind a name text)

/-- The programs that show digests. -/
def digestPrograms : List (String × Tool) :=
  [("md5sum", ⟨"MD5", Md5.hex⟩), ("sha1sum", ⟨"SHA1", Sha1.hex⟩), ("sha256sum", ⟨"SHA256", Sha256.hex⟩),
   ("sha512sum", ⟨"SHA512", Sha512.hex⟩)].map fun (program, kind) ↦ (program, digests program kind)

end Tool
end Shell
end FirmwareLane
