/-!
# Binary floating point numbers

The finite numbers of the 64-bit binary format, kept as a sign, a significand and an exponent of
two, and the rounding of a ratio of natural numbers to the nearest of them.  All arithmetic is
exact arithmetic on natural numbers followed by one rounding.
-/

set_option autoImplicit false
namespace FirmwareLane

/-- The number `± significand * 2 ^ exponent`.  In the results of rounding the significand is below
`2 ^ 53`, and it is at least `2 ^ 52` unless the exponent is the least one. -/
structure Binary64 where
  negative : Bool
  significand : Nat
  exponent : Int
  deriving DecidableEq, Repr

namespace Binary64

/-- The least exponent. -/
def leastExponent : Int := -1074

/-- The greatest exponent. -/
def greatestExponent : Int := 971

/-- Zero, of either sign. -/
def zero (negative : Bool) : Binary64 := ⟨negative, 0, leastExponent⟩

/-- The quotient of two natural numbers rounded to the nearest one; of two that are equally near,
the even one. -/
def nearest (num den : Nat) : Nat :=
  let quotient := num / den
  let twice := 2 * (num % den)
  if twice < den then quotient
  else if den < twice then quotient + 1
  else if quotient % 2 = 0 then quotient else quotient + 1

/-- `2 ^ e` on the side of a fraction where a positive exponent puts it. -/
def scaleUp (n : Nat) (e : Int) : Nat := n * Nat.pow 2 e.toNat

/-- The exponent of the largest power of two that a positive ratio reaches. -/
def magnitude (num den : Nat) : Int :=
  let e : Int := (num.log2 : Int) - (den.log2 : Int)
  if scaleUp den e ≤ scaleUp num (-e) then e else e - 1

/-- The number nearest to a ratio, unless the ratio is too large for any. -/
def ofRatio? (negative : Bool) (num den : Nat) : Option Binary64 :=
  if num = 0 then some (zero negative)
  else
    let e := max (magnitude num den - 52) leastExponent
    let significand := nearest (scaleUp num (-e)) (scaleUp den e)
    let (significand, e) :=
      if significand = Nat.pow 2 53 then (Nat.pow 2 52, e + 1) else (significand, e)
    if greatestExponent < e then none else some ⟨negative, significand, e⟩

/-- The numerator of the absolute value. -/
def num (x : Binary64) : Nat := scaleUp x.significand x.exponent

/-- The denominator of the absolute value. -/
def den (x : Binary64) : Nat := scaleUp 1 (-x.exponent)

/-- The product with a ratio that stands for another number, rounded. -/
def mul? (x y : Binary64) : Option Binary64 :=
  ofRatio? (x.negative != y.negative) (x.num * y.num) (x.den * y.den)

/-- The quotient by a number other than zero, rounded. -/
def div? (x y : Binary64) : Option Binary64 :=
  ofRatio? (x.negative != y.negative) (x.num * y.den) (x.den * y.num)

/-- The number nearest to a power of ten. -/
def powerOfTen? (k : Nat) : Option Binary64 := ofRatio? false (Nat.pow 10 k) 1

/-- The number that a decimal significand and a power of ten stand for, computed with one rounding
for the significand, one for the power and one for their product or quotient.  No power above the
308th is used; dividing by that one twice leaves nothing of a significand of 64 bits. -/
def ofDecimal? (negative : Bool) (significand : Nat) (power : Int) : Option Binary64 := do
  let x ← ofRatio? negative significand 1
  if x.significand = 0 then return zero negative
  else if 0 ≤ power then
    if 308 < power then none else x.mul? (← powerOfTen? power.toNat)
  else if -308 ≤ power then x.div? (← powerOfTen? (-power).toNat)
  else if -616 ≤ power then
    let y ← x.div? (← powerOfTen? 308)
    y.div? (← powerOfTen? (-(power + 308)).toNat)
  else return zero negative

end Binary64
end FirmwareLane
