import FirmwareLane.Number.Binary64
import FirmwareLane.Text.Numeral

/-!
# Numbers written with places

How a number of the 64-bit binary format is written with a given number of digits: with so many of
them behind the point, or with one of them before the point and a power of ten.  The digits are
those of the exact value, rounded to nearest, and to even where two are equally near.
-/

set_option autoImplicit false
namespace FirmwareLane
namespace Binary64

/-- The absolute value times a power of ten, rounded. -/
def rounded (x : Binary64) (power : Int) : Nat :=
  nearest (x.num * Nat.pow 10 power.toNat) (x.den * Nat.pow 10 (-power).toNat)

/-- Digits with a point before the last so many of them; `pointed` puts a point also where nothing
follows it. -/
def withPoint (pointed : Bool) (places : Nat) (digits : List Char) : List Char :=
  let whole := digits.take (digits.length - places)
  let rest := digits.drop (digits.length - places)
  if rest.isEmpty && !pointed then whole else whole ++ '.' :: rest

/-- The absolute value with so many digits behind the point. -/
def fixed (x : Binary64) (pointed : Bool) (places : Nat) : List Char :=
  withPoint pointed places (Text.Numeral.writePadded 10 (places + 1) (x.rounded places))

/-- The greatest power of ten that a ratio reaches, counted from a power downwards. -/
def powerBelow (x : Binary64) : Nat → Int → Int
  | 0, e => e
  | fuel + 1, e =>
    if x.den * Nat.pow 10 e.toNat ≤ x.num * Nat.pow 10 (-e).toNat then e else powerBelow x fuel (e - 1)

/-- The digits of the absolute value, one before the point and so many behind it, and the power of
ten that goes with them. -/
def significant (x : Binary64) (places : Nat) : List Char × Int :=
  if x.significand = 0 then (List.replicate (places + 1) '0', 0)
  else
    let e := x.powerBelow 700 309
    let digits := Text.Numeral.write 10 (x.rounded (places - e))
    if digits.length ≤ places + 1 then (digits, e) else (digits.take (places + 1), e + 1)

/-- A power of ten as it stands behind digits. -/
def powerMark (e : Int) : List Char :=
  'e' :: (if e < 0 then '-' else '+') :: Text.Numeral.writePadded 10 2 e.natAbs

/-- The absolute value with one digit before the point and so many behind it. -/
def scientific (x : Binary64) (pointed : Bool) (places : Nat) : List Char :=
  let (digits, e) := x.significant places
  withPoint pointed places digits ++ powerMark e

/-- Digits with a point, without the zeros at their end, and without a point at their end. -/
def withoutZeros (s : List Char) : List Char :=
  if s.contains '.' then
    let s := s.reverse.dropWhile (· == '0')
    (match s with
      | '.' :: rest => rest
      | s => s).reverse
  else s

/-- The absolute value with at most so many digits, in the shorter of the two ways. -/
def general (x : Binary64) (pointed : Bool) (count : Nat) : List Char :=
  let places := count - 1
  let (digits, e) := x.significant places
  let tidy (s : List Char) : List Char := if pointed then s else withoutZeros s
  if -4 ≤ e && e ≤ places then tidy (x.fixed pointed (places - e).toNat)
  else tidy (withPoint pointed places digits) ++ powerMark e

end Binary64
end FirmwareLane
