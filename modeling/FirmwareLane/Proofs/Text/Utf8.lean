import FirmwareLane.Text.Utf8
import Mathlib.Algebra.GroupWithZero.Nat
import Mathlib.Data.List.Basic
import Mathlib.Data.Nat.Basic
import Mathlib.Data.String.Basic

/-!
# Texts and their bytes

The bytes of a text are read back as that text.  The decoder narrows the byte behind the first one
of a character to a range that depends on that first byte; the cases below follow these ranges.
Texts are in order exactly as their bytes are.  A text has at least as many bytes as characters.
-/

set_option autoImplicit false
namespace FirmwareLane
namespace Text
namespace Utf8

/-! ## One byte at a time -/

/-- What the first byte of a character says, by its number. -/
theorem lead?_ofNat {n : Nat} (h : n < 256) :
    lead? (UInt8.ofNat n) =
      if n < 0x80 then some (0, 0, 0, n)
      else if 0xC2 ≤ n ∧ n ≤ 0xDF then some (1, 0x80, 0xBF, n - 0xC0)
      else if n = 0xE0 then some (2, 0xA0, 0xBF, 0)
      else if n = 0xED then some (2, 0x80, 0x9F, 0xD)
      else if 0xE1 ≤ n ∧ n ≤ 0xEF then some (2, 0x80, 0xBF, n - 0xE0)
      else if n = 0xF0 then some (3, 0x90, 0xBF, 0)
      else if 0xF1 ≤ n ∧ n ≤ 0xF3 then some (3, 0x80, 0xBF, n - 0xF0)
      else if n = 0xF4 then some (3, 0x80, 0x8F, 4)
      else none := by
  have hn : (UInt8.ofNat n).toNat = n := UInt8.toNat_ofNat_of_lt' h
  simp only [lead?, UInt8.lt_iff_toNat_lt, UInt8.le_iff_toNat_le, beq_iff_eq, ← UInt8.toNat_inj, hn,
    Bool.and_eq_true, decide_eq_true_eq]
  rfl

/-- A character begins. -/
theorem decodeOnto_lead {n missing value : Nat} {least greatest : UInt8}
    (h : lead? (UInt8.ofNat n) = some (missing + 1, least, greatest, value)) (done : List Glyph)
    (rest : Bytes) :
    decodeOnto none done (UInt8.ofNat n :: rest) =
      decodeOnto (some ⟨missing + 1, least, greatest, value⟩) done rest := by
  rw [decodeOnto]
  simp only [h]

/-- A character goes on, with `x` as the next six bits. -/
theorem decodeOnto_next {missing value x : Nat} {least greatest : UInt8} (hx : x < 0x40)
    (hleast : least.toNat ≤ x + 0x80) (hgreatest : x + 0x80 ≤ greatest.toNat) (done : List Glyph)
    (rest : Bytes) :
    decodeOnto (some ⟨missing, least, greatest, value⟩) done (UInt8.ofNat (x + 0x80) :: rest) =
      if missing ≤ 1 then decodeOnto none (some (Char.ofNat (value * 64 + x)) :: done) rest
      else decodeOnto (some ⟨missing - 1, 0x80, 0xBF, value * 64 + x⟩) done rest := by
  have hb : (UInt8.ofNat (x + 0x80)).toNat = x + 0x80 :=
    UInt8.toNat_ofNat_of_lt' (show x + 0x80 < 256 by omega)
  have hrange : (least ≤ UInt8.ofNat (x + 0x80) && UInt8.ofNat (x + 0x80) ≤ greatest) = true := by
    simp only [UInt8.le_iff_toNat_le, hb, Bool.and_eq_true, decide_eq_true_eq]
    exact ⟨hleast, hgreatest⟩
  rw [decodeOnto]
  simp only [hrange, if_true, hb, Nat.add_sub_cancel]

/-- The last byte of a character. -/
theorem decodeOnto_last {value x : Nat} (hx : x < 0x40) (done : List Glyph) (rest : Bytes) :
    decodeOnto (some ⟨1, 0x80, 0xBF, value⟩) done (UInt8.ofNat (x + 0x80) :: rest) =
      decodeOnto none (some (Char.ofNat (value * 64 + x)) :: done) rest := by
  have hleast : (0x80 : UInt8).toNat ≤ x + 0x80 := Nat.le_add_left 0x80 x
  have hgreatest : x + 0x80 ≤ (0xBF : UInt8).toNat := show x + 0x80 ≤ 0xBF by omega
  rw [decodeOnto_next hx hleast hgreatest, if_pos (Nat.le_refl 1)]

/-- A byte behind the second one that is not the last. -/
theorem decodeOnto_middle {missing value x : Nat} (hx : x < 0x40) (done : List Glyph)
    (rest : Bytes) :
    decodeOnto (some ⟨missing + 2, 0x80, 0xBF, value⟩) done (UInt8.ofNat (x + 0x80) :: rest) =
      decodeOnto (some ⟨missing + 1, 0x80, 0xBF, value * 64 + x⟩) done rest := by
  have hleast : (0x80 : UInt8).toNat ≤ x + 0x80 := Nat.le_add_left 0x80 x
  have hgreatest : x + 0x80 ≤ (0xBF : UInt8).toNat := show x + 0x80 ≤ 0xBF by omega
  rw [decodeOnto_next hx hleast hgreatest, if_neg (by omega)]
  rfl

/-! ## One character at a time -/

/-- The first byte of a character of three, and the range that it leaves for the second one. -/
theorem lead?_three {v : Nat} (hleast : 0x7ff < v) (hgreatest : v ≤ 0xffff)
    (hc : v < 0xD800 ∨ 0xDFFF < v) :
    ∃ least greatest,
      lead? (UInt8.ofNat (v / 4096 % 0x10 + 0xe0)) = some (2, least, greatest, v / 4096) ∧
      least.toNat ≤ v / 64 % 0x40 + 0x80 ∧ v / 64 % 0x40 + 0x80 ≤ greatest.toNat := by
  rw [lead?_ofNat (by omega), if_neg (by omega), if_neg (by omega)]
  by_cases hfirst : v / 4096 = 0
  · refine ⟨0xA0, 0xBF, ?_, show 0xA0 ≤ _ by omega, show _ ≤ 0xBF by omega⟩
    rw [if_pos (by omega), hfirst]
  · rw [if_neg (by omega)]
    by_cases hhalves : v / 4096 = 0xD
    · refine ⟨0x80, 0x9F, ?_, show 0x80 ≤ _ by omega, show _ ≤ 0x9F by omega⟩
      rw [if_pos (by omega), hhalves]
    · refine ⟨0x80, 0xBF, ?_, show 0x80 ≤ _ by omega, show _ ≤ 0xBF by omega⟩
      rw [if_neg (by omega), if_pos (by omega), show v / 4096 % 0x10 + 0xe0 - 0xe0 = v / 4096 by omega]

/-- The first byte of a character of four, and the range that it leaves for the second one. -/
theorem lead?_four {v : Nat} (hleast : 0xffff < v) (hc : v < 0x110000) :
    ∃ least greatest,
      lead? (UInt8.ofNat (v / 262144 % 0x08 + 0xf0)) = some (3, least, greatest, v / 262144) ∧
      least.toNat ≤ v / 4096 % 0x40 + 0x80 ∧ v / 4096 % 0x40 + 0x80 ≤ greatest.toNat := by
  rw [lead?_ofNat (by omega), if_neg (by omega), if_neg (by omega), if_neg (by omega),
    if_neg (by omega), if_neg (by omega)]
  by_cases hfirst : v / 262144 = 0
  · refine ⟨0x90, 0xBF, ?_, show 0x90 ≤ _ by omega, show _ ≤ 0xBF by omega⟩
    rw [if_pos (by omega), hfirst]
  · rw [if_neg (by omega)]
    by_cases hlast : v / 262144 = 4
    · refine ⟨0x80, 0x8F, ?_, show 0x80 ≤ _ by omega, show _ ≤ 0x8F by omega⟩
      rw [if_neg (by omega), if_pos (by omega), hlast]
    · refine ⟨0x80, 0xBF, ?_, show 0x80 ≤ _ by omega, show _ ≤ 0xBF by omega⟩
      rw [if_pos (by omega), show v / 262144 % 0x08 + 0xf0 - 0xf0 = v / 262144 by omega]

theorem encodeChar_eq (c : Char) :
    encodeChar c =
      if c.toNat ≤ 0x7f then [UInt8.ofNat c.toNat]
      else if c.toNat ≤ 0x7ff then
        [UInt8.ofNat (c.toNat / 64 % 0x20 + 0xc0), UInt8.ofNat (c.toNat % 0x40 + 0x80)]
      else if c.toNat ≤ 0xffff then
        [UInt8.ofNat (c.toNat / 4096 % 0x10 + 0xe0), UInt8.ofNat (c.toNat / 64 % 0x40 + 0x80),
          UInt8.ofNat (c.toNat % 0x40 + 0x80)]
      else
        [UInt8.ofNat (c.toNat / 262144 % 0x08 + 0xf0), UInt8.ofNat (c.toNat / 4096 % 0x40 + 0x80),
          UInt8.ofNat (c.toNat / 64 % 0x40 + 0x80), UInt8.ofNat (c.toNat % 0x40 + 0x80)] := rfl

/-- A byte of a character is its number, or lies above those of single bytes. -/
theorem toNat_of_mem_encodeChar {c : Char} {b : UInt8} (h : b ∈ encodeChar c) :
    b.toNat = c.toNat ∨ 0x80 ≤ b.toNat := by
  rw [encodeChar_eq] at h
  generalize c.toNat = v at h
  split at h
  · rw [List.mem_singleton.1 h, UInt8.toNat_ofNat']
    omega
  · right
    split at h
    · simp only [List.mem_cons, List.not_mem_nil, or_false] at h
      rcases h with rfl | rfl <;> rw [UInt8.toNat_ofNat'] <;> omega
    · split at h <;> simp only [List.mem_cons, List.not_mem_nil, or_false] at h
      · rcases h with rfl | rfl | rfl <;> rw [UInt8.toNat_ofNat'] <;> omega
      · rcases h with rfl | rfl | rfl | rfl <;> rw [UInt8.toNat_ofNat'] <;> omega

/-- **The bytes of a character are read back as that character.** -/
theorem decodeOnto_encodeChar (c : Char) (done : List Glyph) (rest : Bytes) :
    decodeOnto none done (encodeChar c ++ rest) = decodeOnto none (some c :: done) rest := by
  have hc : c.toNat < 0xD800 ∨ 0xDFFF < c.toNat ∧ c.toNat < 0x110000 := c.valid
  have hchar : Char.ofNat c.toNat = c := Char.ofNat_toNat c
  rw [encodeChar_eq]
  generalize c.toNat = v at hc hchar
  split
  · rw [List.singleton_append, decodeOnto]
    simp only [lead?_ofNat (show v < 256 by omega), if_pos (show v < 0x80 by omega), hchar]
  · split
    · have hlead : lead? (UInt8.ofNat (v / 64 % 0x20 + 0xc0)) = some (1, 0x80, 0xBF, v / 64) := by
        rw [lead?_ofNat (by omega), if_neg (by omega), if_pos (by omega),
          show v / 64 % 0x20 + 0xc0 - 0xc0 = v / 64 by omega]
      rw [List.cons_append, decodeOnto_lead hlead, List.singleton_append,
        decodeOnto_last (by omega), show v / 64 * 64 + v % 0x40 = v by omega, hchar]
    · split
      · next hthree =>
        obtain ⟨least, greatest, hlead, hl, hg⟩ := lead?_three (by omega) hthree (by omega)
        rw [List.cons_append, decodeOnto_lead hlead, List.cons_append,
          decodeOnto_next (by omega) hl hg, if_neg (by decide), List.singleton_append,
          decodeOnto_last (by omega),
          show (v / 4096 * 64 + v / 64 % 0x40) * 64 + v % 0x40 = v by omega, hchar]
      · obtain ⟨least, greatest, hlead, hl, hg⟩ := lead?_four (v := v) (by omega) (by omega)
        rw [List.cons_append, decodeOnto_lead hlead, List.cons_append,
          decodeOnto_next (by omega) hl hg, if_neg (by decide), List.cons_append,
          decodeOnto_middle (by omega), List.singleton_append, decodeOnto_last (by omega),
          show ((v / 262144 * 64 + v / 4096 % 0x40) * 64 + v / 64 % 0x40) * 64 + v % 0x40 = v by omega,
          hchar]

/-! ## Whole texts -/

theorem decodeOnto_encode (s : List Char) (done : List Glyph) :
    decodeOnto none done (encode s) = s.reverse.map some ++ done := by
  induction s generalizing done with
  | nil => rfl
  | cons c rest ih =>
    rw [encode, List.flatMap_cons, decodeOnto_encodeChar]
    rw [show rest.flatMap encodeChar = encode rest from rfl, ih]
    simp

theorem glyphs_encode (s : List Char) : glyphs (encode s) = s.map some := by
  rw [glyphs, decodeOnto_encode, List.append_nil, ← List.map_reverse, List.reverse_reverse]

/-- **The bytes of a text are read back as that text.** -/
theorem string?_bytes (s : String) : string? (bytes s) = some s := by
  have hmap : ∀ cs : List Char, (cs.map some).mapM id = some cs := by
    intro cs
    induction cs with
    | nil => rfl
    | cons c rest ih => simp [ih]
  rw [string?, decode?, bytes, glyphs_encode, hmap, Option.map_some, String.ofList_toList]

/-- **A line end is a byte of no other character.** -/
theorem newline_mem_encode {s : List Char} (h : 10 ∈ encode s) : '\n' ∈ s := by
  obtain ⟨c, hc, hbyte⟩ := List.mem_flatMap.1 h
  have hnewline : c = '\n' := by
    rcases toNat_of_mem_encodeChar hbyte with hnat | hnat
    · rw [← Char.ofNat_toNat c, ← hnat]
      rfl
    · exact absurd hnat (by decide)
  exact hnewline ▸ hc

/-! ## How many glyphs -/

/-- Every byte completes a glyph at most, or ends one that was begun before it. -/
theorem length_decodeOnto_le (b : Bytes) (pending : Option Pending) (done : List Glyph) :
    (decodeOnto pending done b).length ≤ done.length + pending.toList.length + b.length := by
  induction b generalizing pending done with
  | nil =>
    cases pending with
    | none => rw [decodeOnto]; exact Nat.le_refl _
    | some p => rw [decodeOnto]; exact Nat.le_refl _
  | cons byte rest ih =>
    have hbegun (done : List Glyph) :
        (decodeOnto none done (byte :: rest)).length ≤ done.length + rest.length + 1 := by
      rw [decodeOnto]
      split
      · exact Nat.le_trans (ih none (none :: done)) (by grind)
      · next value _ =>
        exact Nat.le_trans (ih none (some (Char.ofNat value) :: done)) (by grind)
      · next missing least greatest value _ _ =>
        exact Nat.le_trans (ih (some ⟨missing, least, greatest, value⟩) done) (by grind)
    cases pending with
    | none => exact hbegun done
    | some p =>
      by_cases hnext : (p.least ≤ byte && byte ≤ p.greatest) = true
      · rw [decodeOnto]
        simp only [hnext, if_true]
        split
        · exact Nat.le_trans (ih none _) (by grind)
        · exact Nat.le_trans (ih (some _) done) (by grind)
      · -- The character that was begun is a gap, and the byte begins anew.
        have hgap : decodeOnto (some p) done (byte :: rest) =
            decodeOnto none (none :: done) (byte :: rest) := by
          rw [decodeOnto, decodeOnto]
          simp only [hnext]
          rfl
        rw [hgap]
        exact Nat.le_trans (hbegun (none :: done)) (by grind)

/-- **Bytes hold no more glyphs than they are.** -/
theorem length_glyphs_le (b : Bytes) : (glyphs b).length ≤ b.length := by
  have hlength := length_decodeOnto_le b none []
  rw [glyphs, List.length_reverse]
  simpa using hlength

/-! ## The number of bytes -/

theorem utf8ByteSize_eq_sum (s : String) : s.utf8ByteSize = (s.toList.map Char.utf8Size).sum := by
  have hlist : ∀ cs : List Char, String.utf8Len cs = (cs.map Char.utf8Size).sum := by
    intro cs
    induction cs with
    | nil => rfl
    | cons c rest ih => rw [String.utf8Len_cons, List.map_cons, List.sum_cons, ih, Nat.add_comm]
  rw [← hlist, ← String.utf8ByteSize_ofList, String.ofList_toList]

/-- A text has no more characters than bytes. -/
theorem length_le_utf8ByteSize (s : String) : s.toList.length ≤ s.utf8ByteSize := by
  rw [utf8ByteSize_eq_sum]
  generalize s.toList = cs
  induction cs with
  | nil => exact Nat.le_refl 0
  | cons c rest ih =>
    rw [List.length_cons, List.map_cons, List.sum_cons, Nat.add_comm]
    exact Nat.add_le_add c.utf8Size_pos ih

/-- A text of characters of one byte has as many bytes as characters. -/
theorem utf8ByteSize_of_forall {s : String} (h : ∀ c ∈ s.toList, c.utf8Size = 1) :
    s.utf8ByteSize = s.toList.length := by
  rw [utf8ByteSize_eq_sum, List.map_congr_left h, List.map_const', List.sum_replicate_nat,
    Nat.mul_one]

/-! ## The order of texts

Texts are compared character by character, and bytes one by one.  Characters that come earlier have
bytes that come earlier: the first byte tells how many follow, and the bytes of two characters with
equally many are the digits of their numbers to the base 64, the highest one first.
-/

/-- The bytes of an earlier character come earlier, whatever follows. -/
theorem encodeChar_append_lt {c d : Char} (h : c < d) (s t : Bytes) :
    encodeChar c ++ s < encodeChar d ++ t := by
  have hlt : c.toNat < d.toNat := h
  have hd : d.toNat < 0xD800 ∨ 0xDFFF < d.toNat ∧ d.toNat < 0x110000 := d.valid
  -- all digits by divisions by the base
  have hdigits : ∀ n : Nat, n / 4096 = n / 64 / 64 ∧ n / 262144 = n / 64 / 64 / 64 := by omega
  rw [encodeChar_eq, encodeChar_eq, (hdigits c.toNat).1, (hdigits c.toNat).2, (hdigits d.toNat).1,
    (hdigits d.toNat).2]
  clear hdigits
  split_ifs <;>
    simp only [List.cons_append, List.nil_append, List.cons_lt_cons_iff, UInt8.lt_iff_toNat_lt,
      ← UInt8.toNat_inj, UInt8.toNat_ofNat'] <;> omega

theorem encode_lt_encode {s t : List Char} (h : s < t) : encode s < encode t := by
  induction s generalizing t with
  | nil =>
    cases t with
    | nil => exact absurd h (List.not_lt_nil [])
    | cons d rest =>
      have hne : encode (d :: rest) ≠ [] :=
        List.append_ne_nil_of_left_ne_nil String.utf8EncodeChar_ne_nil _
      obtain ⟨b, more, hbytes⟩ := List.exists_cons_of_ne_nil hne
      rw [hbytes]
      exact List.nil_lt_cons b more
  | cons c s ih =>
    cases t with
    | nil => exact absurd h (List.not_lt_nil _)
    | cons d t =>
      rw [encode, encode, List.flatMap_cons, List.flatMap_cons]
      rcases List.cons_lt_cons_iff.1 h with hless | ⟨rfl, hrest⟩
      · exact encodeChar_append_lt hless _ _
      · exact List.append_left_lt (ih hrest)

/-- **The bytes of an earlier text come earlier.** -/
theorem bytes_lt_bytes {s t : String} (h : s < t) : bytes s < bytes t :=
  encode_lt_encode (String.lt_iff.1 h)

end Utf8
end Text
end FirmwareLane
