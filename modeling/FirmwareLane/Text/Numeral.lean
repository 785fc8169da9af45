/-!
# Numerals

Reading a natural number from its digits in any base up to thirty-six, and writing it.  No sign, no
separator and no blank is part of a numeral: what surrounds the digits is the business of whoever
reads the number.
-/

set_option autoImplicit false
namespace FirmwareLane
namespace Text
namespace Numeral

/-! ## Reading -/

/-- The value of a digit: `0` to `9`, then the letters of either case. -/
def digit? (c : Char) : Option Nat :=
  if '0' ≤ c ∧ c ≤ '9' then some (c.toNat - '0'.toNat)
  else if 'a' ≤ c ∧ c ≤ 'z' then some (c.toNat - 'a'.toNat + 10)
  else if 'A' ≤ c ∧ c ≤ 'Z' then some (c.toNat - 'A'.toNat + 10)
  else none

/-- The value of a digit of the given base. -/
def digitIn? (base : Nat) (c : Char) : Option Nat :=
  (digit? c).filter (· < base)

/-- The number that digits stand for when they continue a number already read. -/
def continue? (base : Nat) : Nat → List Char → Option Nat
  | value, [] => some value
  | value, c :: rest =>
    match digitIn? base c with
    | none => none
    | some d => continue? base (base * value + d) rest

/-- The number that a text of digits stands for; at least one digit is needed. -/
def read? (base : Nat) (digits : List Char) : Option Nat :=
  if digits.isEmpty then none else continue? base 0 digits

/-! ## Writing -/

/-- The lower-case digit of a value below thirty-six. -/
def digitChar (d : Nat) : Char :=
  if d < 10 then Char.ofNat ('0'.toNat + d) else Char.ofNat ('a'.toNat + (d - 10))

/-- The digits of a number in the given base, in front of a text; zero has none. -/
def digitsOnto (base : Nat) (n : Nat) (tail : List Char) : List Char :=
  if _h : n = 0 ∨ base < 2 then tail
  else digitsOnto base (n / base) (digitChar (n % base) :: tail)
termination_by n
decreasing_by exact Nat.div_lt_self (by omega) (by omega)

/-- The shortest numeral of a number. -/
def write (base : Nat) (n : Nat) : List Char :=
  if n = 0 then ['0'] else digitsOnto base n []

/-- The numeral of a number, filled up with zeros on the left to the given width. -/
def writePadded (base width n : Nat) : List Char :=
  let digits := write base n
  List.replicate (width - digits.length) '0' ++ digits

/-- The decimal numeral of a number. -/
def decimal (n : Nat) : String :=
  String.ofList (write 10 n)

/-- The decimal numeral of an integer, with a minus sign if it is negative. -/
def integer (n : Int) : String :=
  if n < 0 then String.ofList ('-' :: write 10 n.natAbs) else decimal n.natAbs

end Numeral
end Text
end FirmwareLane
