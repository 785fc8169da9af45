import FirmwareLane.Text.Blank
import FirmwareLane.Text.Numeral

/-!
# Registers

The thirty-two integer registers and the spellings under which a source text may name them: the
number after an `x`, or the name that the calling convention gives the register.  Case and
surrounding blanks do not matter.
-/

set_option autoImplicit false
namespace FirmwareLane
namespace Assembly

/-- A register, by its number. -/
abbrev Register := BitVec 5

namespace Register

/-- The register that always holds zero. -/
def zero : Register := 0

/-- The register for return addresses. -/
def returnAddress : Register := 1

/-- The names of the calling convention.  Register 8 has two. -/
def names : List (String × Register) :=
  [("zero", 0), ("ra", 1), ("sp", 2), ("gp", 3), ("tp", 4), ("t0", 5), ("t1", 6), ("t2", 7),
   ("s0", 8), ("fp", 8), ("s1", 9), ("a0", 10), ("a1", 11), ("a2", 12), ("a3", 13), ("a4", 14),
   ("a5", 15), ("a6", 16), ("a7", 17), ("s2", 18), ("s3", 19), ("s4", 20), ("s5", 21), ("s6", 22),
   ("s7", 23), ("s8", 24), ("s9", 25), ("s10", 26), ("s11", 27), ("t3", 28), ("t4", 29),
   ("t5", 30), ("t6", 31)]

/-- The register number that the text after an `x` stands for: a numeral below thirty-two without
a leading zero.  A plus sign may stand before the numeral, and the zeros after it are free. -/
def number? (digits : List Char) : Option Nat :=
  let numeral := match digits with
    | '+' :: rest => rest
    | _ => digits
  match Text.Numeral.read? 10 numeral with
  | none => none
  | some n => if n < 32 ∧ (digits = ['0'] ∨ digits.head? ≠ some '0') then some n else none

/-- The register that a spelling in lower case without surrounding blanks stands for. -/
def ofSpelling? (name : List Char) : Option Register :=
  let numbered := match name with
    | 'x' :: digits => number? digits
    | _ => none
  match numbered with
  | some n => some (BitVec.ofNat 5 n)
  | none => (names.find? fun entry ↦ entry.1 == String.ofList name).map (·.2)

/-- The register that an operand names, if it names one. -/
def read? (operand : List Char) : Option Register :=
  ofSpelling? ((Text.trim operand).map Char.toLower)

end Register
end Assembly
end FirmwareLane
