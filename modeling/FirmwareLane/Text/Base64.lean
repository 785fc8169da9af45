import FirmwareLane.Text.Utf8

/-!
# Base64

Bytes as text, three at a time in four symbols, the last group filled up with equals signs.  A text
is read back only if it is the text of some bytes: the padding must be there, and the bits of the
last symbol that belong to no byte must be zero.
-/

set_option autoImplicit false
namespace FirmwareLane
namespace Text
namespace Base64

/-- Why a text is not the text of any bytes. -/
inductive Fault where
  /-- No symbol belongs at this place. -/
  | symbol (byte : UInt8) (offset : Nat)
  /-- The last group has too few symbols for a byte. -/
  | length (n : Nat)
  /-- The last group is not filled up as it should be. -/
  | padding
  /-- The last symbol has bits that belong to no byte. -/
  | lastSymbol (byte : UInt8) (offset : Nat)
  deriving DecidableEq, Repr

/-- The wording of a fault. -/
def Fault.message : Fault → String
  | .symbol byte offset =>
    "Invalid symbol " ++ toString byte.toNat ++ ", offset " ++ toString offset ++ "."
  | .length n => "Invalid input length: " ++ toString n
  | .padding => "Invalid padding"
  | .lastSymbol byte offset =>
    "Invalid last symbol " ++ toString byte.toNat ++ ", offset " ++ toString offset ++ "."

/-! ## Writing -/

/-- The symbol of a value below sixty-four. -/
def symbol (v : Nat) : Char :=
  if v < 26 then Char.ofNat ('A'.toNat + v)
  else if v < 52 then Char.ofNat ('a'.toNat + (v - 26))
  else if v < 62 then Char.ofNat ('0'.toNat + (v - 52))
  else if v = 62 then '+'
  else '/'

/-- The text of bytes. -/
def encode : Bytes → List Char
  | [] => []
  | [a] => [symbol (a.toNat / 4), symbol (a.toNat % 4 * 16), '=', '=']
  | [a, b] =>
    [symbol (a.toNat / 4), symbol (a.toNat % 4 * 16 + b.toNat / 16), symbol (b.toNat % 16 * 4), '=']
  | a :: b :: c :: rest =>
    symbol (a.toNat / 4) :: symbol (a.toNat % 4 * 16 + b.toNat / 16) ::
      symbol (b.toNat % 16 * 4 + c.toNat / 64) :: symbol (c.toNat % 64) :: encode rest

/-! ## Reading -/

/-- The sign that fills up the last group. -/
def pad : UInt8 := 61

/-- The value of a symbol. -/
def value? (b : UInt8) : Option Nat :=
  if 65 ≤ b && b ≤ 90 then some (b.toNat - 65)
  else if 97 ≤ b && b ≤ 122 then some (b.toNat - 97 + 26)
  else if 48 ≤ b && b ≤ 57 then some (b.toNat - 48 + 52)
  else if b = 43 then some 62
  else if b = 47 then some 63
  else none

/-- The value of the symbol at an offset. -/
def valueAt (offset : Nat) (b : UInt8) : Except Fault Nat :=
  match value? b with
  | some v => .ok v
  | none => .error (.symbol b offset)

/-- The byte with a value. -/
def byte (n : Nat) : UInt8 := UInt8.ofNat n

/-- The symbols of the last group that starts at an offset, and the number of signs behind them.
`index` counts the places, and `padding` holds the place of the first sign once there is one. -/
def lastGroup (start : Nat) : Nat → Option Nat → Bytes → Except Fault (List (UInt8 × Nat) × Nat)
  | _, _, [] => .ok ([], 0)
  | index, padding, b :: rest =>
    if b = pad then
      if index < 2 then .error (.symbol b (start + index))
      else do
        let (symbols, signs) ← lastGroup start (index + 1) (some (padding.getD index)) rest
        return (symbols, signs + 1)
    else
      match padding with
      | some first => .error (.symbol pad (start + first))
      | none => do
        let v ← valueAt (start + index) b
        let (symbols, signs) ← lastGroup start (index + 1) none rest
        return ((b, v) :: symbols, signs)

/-- The bytes of the last group, of one to four places, that starts at an offset. -/
def decodeLast (start : Nat) (group : Bytes) : Except Fault Bytes := do
  let (symbols, signs) ← lastGroup start 0 none group
  if symbols.length < 2 then .error (.length (start + group.length))
  else if symbols.length + signs ≠ 4 then .error .padding
  else
    match symbols with
    | [(_, a), (s, b)] =>
      if b % 16 ≠ 0 then .error (.lastSymbol s (start + 1))
      else .ok [byte (a * 4 + b / 16)]
    | [(_, a), (_, b), (s, c)] =>
      if c % 4 ≠ 0 then .error (.lastSymbol s (start + 2))
      else .ok [byte (a * 4 + b / 16), byte (b % 16 * 16 + c / 4)]
    | [(_, a), (_, b), (_, c), (_, d)] =>
      .ok [byte (a * 4 + b / 16), byte (b % 16 * 16 + c / 4), byte (c % 4 * 64 + d)]
    | _ => .error (.length (start + group.length))

/-- The bytes of a text from an offset on. -/
def decodeFrom (start : Nat) : Bytes → Except Fault Bytes
  | a :: b :: c :: d :: e :: rest => do
    let va ← valueAt start a
    let vb ← valueAt (start + 1) b
    let vc ← valueAt (start + 2) c
    let vd ← valueAt (start + 3) d
    let more ← decodeFrom (start + 4) (e :: rest)
    return byte (va * 4 + vb / 16) :: byte (vb % 16 * 16 + vc / 4) :: byte (vc % 4 * 64 + vd) ::
      more
  | [] => .ok []
  | group => decodeLast start group

/-- The bytes of a text.  A single symbol behind whole groups is looked at first. -/
def decode (text : Bytes) : Except Fault Bytes :=
  match text.getLast? with
  | none => .ok []
  | some last =>
    if text.length % 4 = 1 ∧ last ≠ pad ∧ value? last = none then
      .error (.symbol last (text.length - 1))
    else decodeFrom 0 text

end Base64
end Text
end FirmwareLane
