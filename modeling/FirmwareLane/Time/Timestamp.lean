import FirmwareLane.Text.Blank
import FirmwareLane.Text.Numeral

/-!
# Points in time

A point in time to the nanosecond, its standard notation, and the reading of that notation in any
offset from universal time.  A second that was inserted into a minute is told from the one before
it by a fraction of a whole second or more.

The reader takes blanks around the separators, any of three signs between date and time, and the
name of universal time in place of an offset.
-/

set_option autoImplicit false
namespace FirmwareLane

/-- A point in universal time: the seconds since the beginning of 1970, and the nanoseconds since
then, which reach past a whole second only in an inserted second. -/
structure Timestamp where
  seconds : Int
  nanoseconds : Nat
  deriving DecidableEq, Repr

namespace Timestamp

/-! ## The calendar -/

/-- The day of a date, counted from the beginning of 1970.  Years are taken to begin with March, in
eras of four hundred years. -/
def dayOf (year : Int) (month day : Nat) : Int :=
  let y := if month ≤ 2 then year - 1 else year
  let era := y.fdiv 400
  let yearOfEra := y - era * 400
  let monthFromMarch : Int := ((month + 9) % 12 : Nat)
  let dayOfYear := (153 * monthFromMarch + 2) / 5 + day - 1
  let dayOfEra := yearOfEra * 365 + yearOfEra / 4 - yearOfEra / 100 + dayOfYear
  era * 146097 + dayOfEra - 719468

/-- The year, month and day of a day. -/
def dateOf (days : Int) : Int × Nat × Nat :=
  let z := days + 719468
  let era := z.fdiv 146097
  let dayOfEra := z - era * 146097
  let yearOfEra := (dayOfEra - dayOfEra / 1460 + dayOfEra / 36524 - dayOfEra / 146096) / 365
  let dayOfYear := dayOfEra - (365 * yearOfEra + yearOfEra / 4 - yearOfEra / 100)
  let monthFromMarch := (5 * dayOfYear + 2) / 153
  let day := dayOfYear - (153 * monthFromMarch + 2) / 5 + 1
  let month := if monthFromMarch < 10 then monthFromMarch + 3 else monthFromMarch - 9
  let year := yearOfEra + era * 400
  (if month ≤ 2 then year + 1 else year, month.toNat, day.toNat)

/-- Whether February has a twenty-ninth day. -/
def isLeapYear (year : Int) : Bool :=
  year % 4 == 0 && (year % 100 != 0 || year % 400 == 0)

/-- The number of days of a month. -/
def daysInMonth (year : Int) (month : Nat) : Nat :=
  if month = 2 then (if isLeapYear year then 29 else 28)
  else if month = 4 ∨ month = 6 ∨ month = 9 ∨ month = 11 then 30
  else 31

/-- The first year of the calendar. -/
def firstYear : Int := -262143

/-- The last year of the calendar. -/
def lastYear : Int := 262142

/-! ## Writing -/

/-- A number of two digits. -/
def twoDigits (n : Nat) : List Char := Text.Numeral.writePadded 10 2 n

/-- A year: four digits, or a sign and at least four. -/
def yearText (year : Int) : List Char :=
  if 0 ≤ year ∧ year ≤ 9999 then Text.Numeral.writePadded 10 4 year.toNat
  else (if year < 0 then '-' else '+') :: Text.Numeral.writePadded 10 4 year.natAbs

/-- The fraction of a second in three, six or nine digits, or none of a whole second. -/
def fractionText (nanoseconds : Nat) : List Char :=
  if nanoseconds = 0 then []
  else if nanoseconds % 1000000 = 0 then
    '.' :: Text.Numeral.writePadded 10 3 (nanoseconds / 1000000)
  else if nanoseconds % 1000 = 0 then '.' :: Text.Numeral.writePadded 10 6 (nanoseconds / 1000)
  else '.' :: Text.Numeral.writePadded 10 9 nanoseconds

/-- The notation of a point in time. -/
def render (t : Timestamp) : String :=
  let days := t.seconds.fdiv 86400
  let second := (t.seconds - days * 86400).toNat
  let (year, month, day) := dateOf days
  let inserted := 1000000000 ≤ t.nanoseconds
  let fraction := if inserted then t.nanoseconds - 1000000000 else t.nanoseconds
  String.ofList <|
    yearText year ++ '-' :: twoDigits month ++ '-' :: twoDigits day ++ 'T' ::
      twoDigits (second / 3600) ++ ':' :: twoDigits (second / 60 % 60) ++ ':' ::
      twoDigits (second % 60 + if inserted then 1 else 0) ++ fractionText fraction ++ ['Z']

/-! ## Reading -/

/-- Why a text names no point in time. -/
inductive Fault where
  | outOfRange
  | impossible
  | invalid
  | tooShort
  | tooLong
  deriving DecidableEq, Repr

/-- The wording of a fault. -/
def Fault.message : Fault → String
  | .outOfRange => "input is out of range"
  | .impossible => "no possible date and time matching input"
  | .invalid => "input contains invalid characters"
  | .tooShort => "premature end of input"
  | .tooLong => "trailing input"

/-- A number of at least one digit and at most so many as given, and the rest. -/
def number (most : Nat) (s : List Char) : Except Fault (Nat × List Char) :=
  let digits := (s.take most).takeWhile Char.isDigit
  match Text.Numeral.read? 10 digits with
  | some n => if n < Nat.pow 2 63 then .ok (n, s.drop digits.length) else .error .outOfRange
  | none => .error (if s.isEmpty then .tooShort else .invalid)

/-- A number in a range, behind blanks. -/
def field (most least greatest : Nat) (s : List Char) : Except Fault (Nat × List Char) := do
  let (n, rest) ← number most (Text.trimStart s)
  if least ≤ n ∧ n ≤ greatest then .ok (n, rest) else .error .outOfRange

/-- A year, which may have more than four digits behind a sign. -/
def year (s : List Char) : Except Fault (Int × List Char) := do
  let (n, rest) ← match Text.trimStart s with
    | '-' :: rest => do
      let (n, rest) ← number rest.length rest
      pure (-(n : Int), rest)
    | '+' :: rest => do
      let (n, rest) ← number rest.length rest
      pure ((n : Int), rest)
    | s => do
      let (n, rest) ← number 4 s
      pure ((n : Int), rest)
  if -(Nat.pow 2 31) ≤ n ∧ n < Nat.pow 2 31 then .ok (n, rest) else .error .outOfRange

/-- What follows a sign that may have blanks before it. -/
def sign (c : Char) (s : List Char) : Except Fault (List Char) :=
  match Text.trimStart s with
  | [] => .error .tooShort
  | d :: rest => if d = c then .ok rest else .error .invalid

/-- What follows the sign between date and time. -/
def dateEnd : List Char → Except Fault (List Char)
  | [] => .error .tooShort
  | c :: rest => if c = 'T' ∨ c = 't' ∨ c = ' ' then .ok rest else .error .invalid

/-- The nanoseconds of a fraction, if there is one, and the rest.  Digits behind the ninth are
dropped. -/
def fraction : List Char → Except Fault (Nat × List Char)
  | '.' :: s => do
    let (n, rest) ← number 9 s
    let width := s.length - rest.length
    return (n * Nat.pow 10 (9 - width), rest.dropWhile Char.isDigit)
  | s => .ok (0, s)

/-- Two digits. -/
def digitPair (s : List Char) : Except Fault (Nat × Nat) :=
  let byteCount := (s.take 2).foldl (fun n c ↦ n + c.utf8Size) 0
  match s with
  | a :: b :: _ =>
    if a.isDigit && b.isDigit then .ok (a.toNat - '0'.toNat, b.toNat - '0'.toNat)
    else .error .invalid
  | _ => .error (if byteCount < 2 then .tooShort else .invalid)

/-- The offset from universal time in seconds, and the rest. -/
def offset (s : List Char) : Except Fault (Int × List Char) := do
  match s with
  | [] => .error .tooShort
  | c :: rest =>
    if (s.take 3).map Char.toUpper = "UTC".toList then return (0, s.drop 3)
    else if c = 'Z' ∨ c = 'z' then return (0, rest)
    else if c = '+' ∨ c = '-' ∨ c = '\u2212' then
      let (h, h') ← digitPair rest
      let rest := (rest.drop 2).dropWhile fun c ↦ c == ':' || Text.isBlank c
      let (m, m') ← digitPair rest
      if 6 ≤ m then .error .outOfRange
      else
        let seconds : Int := ((10 * h + h') * 3600 + (10 * m + m') * 60 : Nat)
        return (if c = '+' then seconds else -seconds, rest.drop 2)
    else .error .invalid

/-- The point in time that a text names. -/
def read (s : List Char) : Except Fault Timestamp := do
  let (y, s) ← year s
  let (month, s) ← field 2 1 12 (← sign '-' s)
  let (day, s) ← field 2 1 31 (← sign '-' s)
  let s ← dateEnd s
  let (hour, s) ← field 2 0 23 s
  let (minute, s) ← field 2 0 59 (← sign ':' s)
  let (second, s) ← field 2 0 60 (← sign ':' s)
  let (nanoseconds, s) ← fraction s
  let (shift, s) ← offset (Text.trimStart s)
  if !(Text.trimStart s).isEmpty then .error .tooLong
  else if y < firstYear ∨ lastYear < y ∨ daysInMonth y month < day then .error .outOfRange
  else if shift ≤ -86400 ∨ 86400 ≤ shift then .error .outOfRange
  else
    let inserted := second = 60
    let clock : Int := (hour * 3600 + minute * 60 + (if inserted then 59 else second) : Nat)
    let seconds := dayOf y month day * 86400 + clock - shift
    let (utcYear, _) := dateOf (seconds.fdiv 86400)
    if utcYear < firstYear ∨ lastYear < utcYear then .error .impossible
    else return ⟨seconds, if inserted then nanoseconds + 1000000000 else nanoseconds⟩

end Timestamp
end FirmwareLane
