import FirmwareLane.Text.Base64

/-!
# Bytes survive as symbols

The text of bytes is read back as those bytes.  All groups but the last are read by their four
symbols; the last one has two, three or four of them, and the bits that belong to no byte are zero
because the writer put nothing there.
-/

set_option autoImplicit false
namespace FirmwareLane
namespace Text
namespace Base64

/-! ## One symbol -/

/-- The byte of the symbol of a value. -/
def symbolByte (v : Nat) : UInt8 := UInt8.ofNat (symbol v).toNat

theorem encodeChar_symbol {v : Nat} (h : v < 64) : Utf8.encodeChar (symbol v) = [symbolByte v] := by
  have hall : ∀ v < 64, Utf8.encodeChar (symbol v) = [symbolByte v] := by decide +kernel
  exact hall v h

theorem value?_symbolByte {v : Nat} (h : v < 64) : value? (symbolByte v) = some v := by
  have hall : ∀ v < 64, value? (symbolByte v) = some v := by decide +kernel
  exact hall v h

theorem symbolByte_ne_pad {v : Nat} (h : v < 64) : symbolByte v ≠ pad := by
  intro heq
  have hvalue := value?_symbolByte h
  rw [heq] at hvalue
  exact absurd hvalue (by simp [value?, pad])

theorem valueAt_symbolByte {v : Nat} (h : v < 64) (offset : Nat) :
    valueAt offset (symbolByte v) = .ok v := by
  rw [valueAt, value?_symbolByte h]

theorem byte_eq {n : Nat} {b : UInt8} (h : n = b.toNat) : byte n = b := by
  rw [byte, h, UInt8.ofNat_toNat]

/-! ## The last group -/

theorem lastGroup_symbolByte {v : Nat} (h : v < 64) (start index : Nat) (rest : Bytes) :
    lastGroup start index none (symbolByte v :: rest) =
      (lastGroup start (index + 1) none rest).map fun (symbols, signs) ↦
        ((symbolByte v, v) :: symbols, signs) := by
  rw [lastGroup, if_neg (symbolByte_ne_pad h)]
  simp only [valueAt_symbolByte h]
  rfl

theorem decodeLast_two {v w : Nat} (hv : v < 64) (hw : w < 64) (hlast : w % 16 = 0)
    (start : Nat) :
    decodeLast start [symbolByte v, symbolByte w, pad, pad] = .ok [byte (v * 4 + w / 16)] := by
  have hsigns : lastGroup start 2 none [pad, pad] = .ok ([], 2) := rfl
  rw [decodeLast, lastGroup_symbolByte hv, lastGroup_symbolByte hw, hsigns]
  show (if w % 16 ≠ 0 then _ else _) = _
  rw [if_neg (not_not_intro hlast)]

theorem decodeLast_three {v w x : Nat} (hv : v < 64) (hw : w < 64) (hx : x < 64)
    (hlast : x % 4 = 0) (start : Nat) :
    decodeLast start [symbolByte v, symbolByte w, symbolByte x, pad] =
      .ok [byte (v * 4 + w / 16), byte (w % 16 * 16 + x / 4)] := by
  have hsigns : lastGroup start 3 none [pad] = .ok ([], 1) := rfl
  rw [decodeLast, lastGroup_symbolByte hv, lastGroup_symbolByte hw, lastGroup_symbolByte hx, hsigns]
  show (if x % 4 ≠ 0 then _ else _) = _
  rw [if_neg (not_not_intro hlast)]

theorem decodeLast_four {v w x y : Nat} (hv : v < 64) (hw : w < 64) (hx : x < 64) (hy : y < 64)
    (start : Nat) :
    decodeLast start [symbolByte v, symbolByte w, symbolByte x, symbolByte y] =
      .ok [byte (v * 4 + w / 16), byte (w % 16 * 16 + x / 4), byte (x % 4 * 64 + y)] := by
  rw [decodeLast, lastGroup_symbolByte hv, lastGroup_symbolByte hw, lastGroup_symbolByte hx,
    lastGroup_symbolByte hy]
  rfl

/-! ## All groups -/

theorem utf8_encode_one (a : UInt8) : Utf8.encode (encode [a]) =
    [symbolByte (a.toNat / 4), symbolByte (a.toNat % 4 * 16), pad, pad] := by
  have ha := a.toNat_lt
  have hpad : Utf8.encodeChar '=' = [pad] := rfl
  simp only [encode, Utf8.encode, List.flatMap_cons, List.flatMap_nil, hpad,
    encodeChar_symbol (show a.toNat / 4 < 64 by omega),
    encodeChar_symbol (show a.toNat % 4 * 16 < 64 by omega), List.cons_append, List.nil_append]

theorem utf8_encode_two (a b : UInt8) : Utf8.encode (encode [a, b]) =
    [symbolByte (a.toNat / 4), symbolByte (a.toNat % 4 * 16 + b.toNat / 16),
      symbolByte (b.toNat % 16 * 4), pad] := by
  have ha := a.toNat_lt
  have hb := b.toNat_lt
  have hpad : Utf8.encodeChar '=' = [pad] := rfl
  simp only [encode, Utf8.encode, List.flatMap_cons, List.flatMap_nil, hpad,
    encodeChar_symbol (show a.toNat / 4 < 64 by omega),
    encodeChar_symbol (show a.toNat % 4 * 16 + b.toNat / 16 < 64 by omega),
    encodeChar_symbol (show b.toNat % 16 * 4 < 64 by omega), List.cons_append, List.nil_append]

theorem utf8_encode_three (a b c : UInt8) (rest : Bytes) :
    Utf8.encode (encode (a :: b :: c :: rest)) =
      symbolByte (a.toNat / 4) :: symbolByte (a.toNat % 4 * 16 + b.toNat / 16) ::
        symbolByte (b.toNat % 16 * 4 + c.toNat / 64) :: symbolByte (c.toNat % 64) ::
          Utf8.encode (encode rest) := by
  have ha := a.toNat_lt
  have hb := b.toNat_lt
  have hc := c.toNat_lt
  simp only [encode, Utf8.encode, List.flatMap_cons,
    encodeChar_symbol (show a.toNat / 4 < 64 by omega),
    encodeChar_symbol (show a.toNat % 4 * 16 + b.toNat / 16 < 64 by omega),
    encodeChar_symbol (show b.toNat % 16 * 4 + c.toNat / 64 < 64 by omega),
    encodeChar_symbol (show c.toNat % 64 < 64 by omega), List.cons_append, List.nil_append]

/-- The groups are always filled up. -/
theorem four_dvd_length_encode (bytes : Bytes) : 4 ∣ (Utf8.encode (encode bytes)).length := by
  induction bytes using encode.induct with
  | case1 => exact ⟨0, rfl⟩
  | case2 a => exact ⟨1, by rw [utf8_encode_one]; rfl⟩
  | case3 a b => exact ⟨1, by rw [utf8_encode_two]; rfl⟩
  | case4 a b c rest ih =>
    obtain ⟨groups, hgroups⟩ := ih
    refine ⟨groups + 1, ?_⟩
    simp only [utf8_encode_three, List.length_cons, hgroups]
    omega

theorem decodeFrom_encode (bytes : Bytes) (start : Nat) :
    decodeFrom start (Utf8.encode (encode bytes)) = .ok bytes := by
  induction bytes using encode.induct generalizing start with
  | case1 => rfl
  | case2 a =>
    have ha := a.toNat_lt
    rw [utf8_encode_one]
    refine (decodeLast_two (by omega) (by omega) (by omega) start).trans ?_
    rw [byte_eq (b := a) (by omega)]
  | case3 a b =>
    have ha := a.toNat_lt
    have hb := b.toNat_lt
    rw [utf8_encode_two]
    refine (decodeLast_three (by omega) (by omega) (by omega) (by omega) start).trans ?_
    rw [byte_eq (b := a) (by omega), byte_eq (b := b) (by omega)]
  | case4 a b c rest ih =>
    have ha := a.toNat_lt
    have hb := b.toNat_lt
    have hc := c.toNat_lt
    have hfirst : byte (a.toNat / 4 * 4 + (a.toNat % 4 * 16 + b.toNat / 16) / 16) = a :=
      byte_eq (by omega)
    have hsecond : byte ((a.toNat % 4 * 16 + b.toNat / 16) % 16 * 16 +
        (b.toNat % 16 * 4 + c.toNat / 64) / 4) = b := byte_eq (by omega)
    have hthird : byte ((b.toNat % 16 * 4 + c.toNat / 64) % 4 * 64 + c.toNat % 64) = c :=
      byte_eq (by omega)
    rw [utf8_encode_three]
    -- whole groups go on one by one only while something stands behind them
    cases hrest : Utf8.encode (encode rest) with
    | nil =>
      obtain rfl : [] = rest := Except.ok.inj (hrest ▸ ih 0)
      refine (decodeLast_four (by omega) (by omega) (by omega) (by omega) start).trans ?_
      rw [hfirst, hsecond, hthird]
    | cons e more =>
      have hmore : decodeFrom (start + 4) (e :: more) = .ok rest := hrest ▸ ih (start + 4)
      rw [decodeFrom, valueAt_symbolByte (by omega), valueAt_symbolByte (by omega),
        valueAt_symbolByte (by omega), valueAt_symbolByte (by omega), hmore]
      simp only [bind, Except.bind, pure, Except.pure, hfirst, hsecond, hthird]

/-- **The text of bytes is read back as those bytes.** -/
theorem decode_encode (bytes : Bytes) : decode (Utf8.encode (encode bytes)) = .ok bytes := by
  have hread := decodeFrom_encode bytes 0
  rw [decode]
  cases hlast : (Utf8.encode (encode bytes)).getLast? with
  | none =>
    rw [List.getLast?_eq_none_iff.1 hlast] at hread
    exact hread
  | some last =>
    have hwhole : ¬ (Utf8.encode (encode bytes)).length % 4 = 1 := by
      rw [Nat.mod_eq_zero_of_dvd (four_dvd_length_encode bytes)]
      exact Nat.zero_ne_one
    exact (if_neg fun h ↦ hwhole h.1).trans hread

end Base64
end Text
end FirmwareLane
