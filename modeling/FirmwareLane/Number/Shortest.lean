import FirmwareLane.Number.Binary64
import FirmwareLane.Text.Numeral

/-!
# The shortest decimal of a binary number

The decimal with the fewest digits among those that round to a given binary number, and of several
with equally few the nearest one; and how it is written, positional for moderate exponents and with
a power of ten for the others.
-/

set_option autoImplicit false
namespace FirmwareLane
namespace Binary64

/-! ## The digits -/

/-- A decimal `digits * 10 ^ power`. -/
structure Decimal where
  digits : Nat
  power : Int
  deriving DecidableEq, Repr

/-- `10 ^ e` on the side of a fraction where a positive exponent puts it. -/
def scaleTen (n : Nat) (e : Int) : Nat := n * Nat.pow 10 e.toNat

/-- A quarter of the last place of a number is the unit in which its neighbourhood is measured:
this is how many of them a decimal comes to, as the numerator over `quarterDen`. -/
def quarterNum (x : Binary64) (d : Decimal) : Nat :=
  scaleUp (scaleTen d.digits d.power) (2 - x.exponent)

/-- The denominator that goes with `quarterNum`. -/
def quarterDen (x : Binary64) (power : Int) : Nat :=
  scaleUp (scaleTen 1 (-power)) (x.exponent - 2)

/-- Whether a decimal rounds to a number other than zero.  The gap below a power of two is half the
gap above it, and a decimal in the middle of a gap rounds to the even side. -/
def hits (x : Binary64) (d : Decimal) : Bool :=
  let unit := quarterDen x d.power
  let value := quarterNum x d
  let below := if x.significand = Nat.pow 2 52 ∧ leastExponent < x.exponent then 1 else 2
  let least := (4 * x.significand - below) * unit
  let greatest := (4 * x.significand + 2) * unit
  if x.significand % 2 = 0 then least ≤ value && value ≤ greatest
  else least < value && value < greatest

/-- The decimal on the grid of a power of ten that is nearest to a number, among those that round
to it. -/
def onGrid? (x : Binary64) (power : Int) : Option Decimal :=
  let unit := scaleTen x.den power
  let value := scaleTen x.num (-power)
  let floor := value / unit
  let down : Decimal := ⟨floor, power⟩
  let up : Decimal := ⟨floor + 1, power⟩
  let remainder := value % unit
  let downFirst := 2 * remainder < unit || (2 * remainder == unit && floor % 2 == 0)
  let (first, second) := if downFirst then (down, up) else (up, down)
  if hits x first && first.digits != 0 then some first
  else if hits x second && second.digits != 0 then some second
  else none

/-- The first decimal that the grids of falling powers of ten give. -/
def firstOnGrids (x : Binary64) : Nat → Int → Decimal
  | 0, power => ⟨scaleTen x.num (-power) / scaleTen x.den power, power⟩
  | fuel + 1, power =>
    match onGrid? x power with
    | some d => d
    | none => firstOnGrids x fuel (power - 1)

/-- A decimal without zeros at its end. -/
def Decimal.stripped : Nat → Decimal → Decimal
  | 0, d => d
  | fuel + 1, d =>
    if d.digits % 10 = 0 ∧ d.digits ≠ 0 then stripped fuel ⟨d.digits / 10, d.power + 1⟩ else d

/-- The number of decimal digits of a natural number. -/
def digitCount (n : Nat) : Nat := (Text.Numeral.write 10 n).length

/-- The shortest decimal that rounds to a number.  The grids start above the number, so eighteen
of them and those between the integral and the whole number of digits are enough. -/
def shortest (x : Binary64) : Decimal :=
  if x.significand = 0 then ⟨0, 0⟩
  else
    let start : Int := (digitCount (x.num / x.den) : Int) -
      (if x.num / x.den = 0 then (digitCount (x.den / x.num) : Int) else 0)
    (firstOnGrids x 24 start).stripped 400

/-! ## Notation of decimals -/

/-- How decimals are written. -/
structure Style where
  /-- The least power of ten of the first digit that is written positionally. -/
  leastPositional : Int
  /-- The greatest power of ten of the first digit that is written positionally. -/
  greatestPositional : Int

/-- Numbers from `0.00001` to just below `10 ^ 16` are positional and have a digit on either side of
the point; an exponent has a sign and no zeros in front. -/
def jsonStyle : Style := ⟨-5, 15⟩

/-- The text of a decimal in a style. -/
def Decimal.render (style : Style) (d : Decimal) : List Char :=
  let digits := Text.Numeral.write 10 d.digits
  let count := digits.length
  let first : Int := d.power + count - 1
  if d.digits = 0 then "0.0".toList
  else if style.leastPositional ≤ first ∧ first ≤ style.greatestPositional then
    if first < 0 then
      "0.".toList ++ List.replicate (-first - 1).toNat '0' ++ digits
    else
      let whole := (first + 1).toNat
      let front := digits.take whole ++ List.replicate (whole - count) '0'
      let back := digits.drop whole
      front ++ '.' :: (if back.isEmpty then ['0'] else back)
  else
    let mantissa := match digits with
      | [] => []
      | [c] => [c]
      | c :: rest => c :: '.' :: rest
    let sign := if first < 0 then '-' else '+'
    mantissa ++ 'e' :: sign :: Text.Numeral.write 10 first.natAbs

/-- The shortest text that reads back as a number. -/
def render (x : Binary64) : List Char :=
  let text := (shortest x).render jsonStyle
  if x.negative then '-' :: text else text

end Binary64
end FirmwareLane
