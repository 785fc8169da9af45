import Mathlib.Data.Nat.Digits.Lemmas
import FirmwareLane.Text.Blank
import FirmwareLane.Text.Numeral

/-!
# Numerals, and where texts are cut

A numeral is written with the digits of its number, the most significant one first, and the first
one is zero only in the numeral of zero.  More zeros in front of it are read, but never written.

What the pieces are that a text is cut into is said by how they are put together again.
-/

set_option autoImplicit false
namespace FirmwareLane
namespace Text
namespace Numeral

theorem digitsOnto_eq {base : Nat} (hbase : 1 < base) (n : Nat) (tail : List Char) :
    digitsOnto base n tail = (Nat.digits base n).reverse.map digitChar ++ tail := by
  induction n using Nat.strongRecOn generalizing tail with
  | _ n ih =>
    rw [digitsOnto]
    rcases Nat.eq_zero_or_pos n with rfl | hpos
    · rw [dif_pos (.inl rfl), Nat.digits_zero]
      rfl
    · rw [dif_neg (by omega), ih _ (Nat.div_lt_self hpos hbase), Nat.digits_def' hbase hpos,
        List.reverse_cons, List.map_append, List.append_assoc]
      rfl

/-- The digits that a number is written with in a base. -/
def digitsIn (base n : Nat) : List Nat := if n = 0 then [0] else (Nat.digits base n).reverse

section Digits

variable {base : Nat} (hbase : 1 < base)

include hbase

theorem write_eq_map_digitsIn (n : Nat) : write base n = (digitsIn base n).map digitChar := by
  rw [write, digitsIn]
  split
  · rfl
  · rw [digitsOnto_eq hbase, List.append_nil]

theorem lt_of_mem_digitsIn {n d : Nat} (h : d ∈ digitsIn base n) : d < base := by
  rw [digitsIn] at h
  split at h
  · rw [List.mem_singleton.1 h]
    exact Nat.zero_lt_of_lt hbase
  · exact Nat.digits_lt_base hbase (List.mem_reverse.1 h)

/-- A number below a power of the base has no more digits than the power says. -/
theorem length_digitsIn_le {n k : Nat} (hk : k ≠ 0) (h : n < base ^ k) :
    (digitsIn base n).length ≤ k := by
  rw [digitsIn]
  split
  · exact Nat.one_le_iff_ne_zero.2 hk
  · rw [List.length_reverse]
    exact (Nat.digits_length_le_iff hbase n).2 h

end Digits

theorem digitsIn_ne_nil (base n : Nat) : digitsIn base n ≠ [] := by
  rw [digitsIn]
  split
  · exact List.cons_ne_nil 0 []
  · next h => exact mt List.reverse_eq_nil_iff.1 (Nat.digits_ne_nil_iff_ne_zero.2 h)

theorem ofDigits_digitsIn (base n : Nat) : Nat.ofDigits base (digitsIn base n).reverse = n := by
  rw [digitsIn]
  split
  · next h =>
    rw [h]
    rfl
  · rw [List.reverse_reverse, Nat.ofDigits_digits]

/-- The digits that a number is written with in the decimal system. -/
def decimalDigits (n : Nat) : List Nat := if n = 0 then [0] else (Nat.digits 10 n).reverse

theorem write_eq_map (n : Nat) : write 10 n = (decimalDigits n).map digitChar :=
  write_eq_map_digitsIn (by decide) n

theorem lt_of_mem_decimalDigits {n d : Nat} (h : d ∈ decimalDigits n) : d < 10 :=
  lt_of_mem_digitsIn (by decide) h

theorem decimalDigits_ne_nil (n : Nat) : decimalDigits n ≠ [] := digitsIn_ne_nil 10 n

/-- Only zero is written with a zero in front, and with nothing behind it. -/
theorem decimalDigits_of_head_eq_zero {n : Nat} (h : (decimalDigits n).head? = some 0) :
    decimalDigits n = [0] := by
  rw [decimalDigits] at h ⊢
  split at h
  · next hn => rw [if_pos hn]
  · next hn =>
    have hne : Nat.digits 10 n ≠ [] := Nat.digits_ne_nil_iff_ne_zero.2 hn
    rw [List.head?_reverse, List.getLast?_eq_some_getLast hne] at h
    exact absurd (Option.some.inj h) (Nat.getLast_digit_ne_zero 10 hn)

/-- Read from the front, digits give the number that they are the digits of. -/
theorem foldl_eq_ofDigits (base : Nat) (digits : List Nat) :
    digits.foldl (fun n d ↦ base * n + d) 0 = Nat.ofDigits base digits.reverse := by
  rw [Nat.ofDigits_eq_foldr, List.foldr_reverse]
  refine congrArg (fun f ↦ List.foldl f 0 digits) ?_
  funext n d
  exact Nat.add_comm _ _

theorem foldl_decimalDigits (n : Nat) :
    (decimalDigits n).foldl (fun n d ↦ 10 * n + d) 0 = n :=
  (foldl_eq_ofDigits 10 _).trans (ofDigits_digitsIn 10 n)

theorem digitIn?_digitChar : ∀ d < 10, digitIn? 10 (digitChar d) = some d := by decide

/-! ### Reading digits -/

/-- What continues a number is read if it consists of digits. -/
theorem continue?_eq_some {base value n : Nat} {s : List Char} :
    continue? base value s = some n ↔
      ∃ digits, List.Forall₂ (fun c d ↦ digitIn? base c = some d) s digits ∧
        digits.foldl (fun n d ↦ base * n + d) value = n := by
  induction s generalizing value with
  | nil => simp [continue?]
  | cons c rest ih =>
    rw [continue?]
    cases hc : digitIn? base c with
    | none =>
      refine ⟨fun h ↦ (nomatch h), ?_⟩
      rintro ⟨_, hdigits, -⟩
      cases hdigits with
      | cons hd _ => exact nomatch hc.symm.trans hd
    | some d =>
      refine ih.trans ⟨?_, ?_⟩
      · rintro ⟨digits, hdigits, hn⟩
        exact ⟨d :: digits, .cons hc hdigits, hn⟩
      · rintro ⟨_, hdigits, hn⟩
        cases hdigits with
        | @cons _ e _ digits he hrest =>
          obtain rfl := Option.some.inj (hc.symm.trans he)
          exact ⟨digits, hrest, hn⟩

/-- **A text is read as a number if it consists of digits for it**, at least one. -/
theorem read?_eq_some {base n : Nat} {s : List Char} :
    read? base s = some n ↔
      s ≠ [] ∧ ∃ digits, List.Forall₂ (fun c d ↦ digitIn? base c = some d) s digits ∧
        Nat.ofDigits base digits.reverse = n := by
  simp only [read?, List.isEmpty_iff, ← foldl_eq_ofDigits, ← continue?_eq_some]
  split <;> simp_all

/-- **A numeral is read as the number that it was written for.** -/
theorem read?_write (n : Nat) : read? 10 (write 10 n) = some n := by
  rw [write_eq_map, read?_eq_some]
  refine ⟨mt List.map_eq_nil_iff.1 (decimalDigits_ne_nil n), decimalDigits n, ?_, ?_⟩
  · rw [List.forall₂_map_left_iff, List.forall₂_same]
    exact fun d hd ↦ digitIn?_digitChar d (lt_of_mem_decimalDigits hd)
  · rw [← foldl_eq_ofDigits, foldl_decimalDigits]

/-! ### Zeros in front -/

/-- A character is as far behind another one as their numbers say. -/
theorem ofNat_add_sub {first c : Char} (h : first ≤ c) :
    Char.ofNat (first.toNat + (c.toNat - first.toNat)) = c := by
  have hle : first.toNat ≤ c.toNat := h
  rw [Nat.add_sub_cancel' hle, Char.ofNat_toNat]

/-- The digits of the decimal system are written in one way. -/
theorem eq_digitChar_of_digitIn? {c : Char} {d : Nat} (h : digitIn? 10 c = some d) :
    c = digitChar d ∧ d < 10 := by
  obtain ⟨hd, hlt⟩ := Option.filter_eq_some_iff.1 h
  have hlt : d < 10 := of_decide_eq_true hlt
  refine ⟨?_, hlt⟩
  rw [digit?] at hd
  split at hd
  · next hrange =>
    rw [digitChar, if_pos hlt, ← Option.some.inj hd, ofNat_add_sub hrange.1]
  -- the letters have greater values
  · split at hd
    · have := Option.some.inj hd
      omega
    · split at hd
      · have := Option.some.inj hd
        omega
      · exact nomatch hd

/-- A text of digits that does not begin with a zero is the numeral of its number. -/
theorem eq_write_of_read? {s : List Char} {n : Nat} (h : read? 10 s = some n)
    (hhead : s.head? ≠ some '0') : s = write 10 n := by
  obtain ⟨hne, digits, hdigits, rfl⟩ := read?_eq_some.1 h
  obtain ⟨hlt, hs⟩ := (List.forall₂_and_left _ _).1
    (hdigits.flip.imp fun d c hd ↦ (eq_digitChar_of_digitIn? hd).symm)
  obtain rfl : digits.map digitChar = s := by
    rw [← List.forall₂_eq_eq_eq, List.forall₂_map_left_iff]
    exact hs.imp fun d c hc ↦ hc.symm
  have hdigits : Nat.digits 10 (Nat.ofDigits 10 digits.reverse) = digits.reverse := by
    refine Nat.digits_ofDigits 10 (by decide) _ (fun d hd ↦ hlt d (List.mem_reverse.1 hd)) ?_
    intro hne hzero
    rw [List.getLast_reverse] at hzero
    apply hhead
    rw [List.head?_map, List.head?_eq_some_head (mt List.reverse_eq_nil_iff.2 hne), hzero]
    rfl
  have hpos : Nat.ofDigits 10 digits.reverse ≠ 0 := by
    rw [← Nat.digits_ne_nil_iff_ne_zero (b := 10), hdigits, ne_eq, List.reverse_eq_nil_iff]
    exact fun hnil ↦ hne (congrArg _ hnil)
  rw [write_eq_map, decimalDigits, if_neg hpos, hdigits, List.reverse_reverse]

/-- **A text is read as the number whose numeral it is, behind any number of zeros.** -/
theorem read?_ten_eq_some {s : List Char} {n : Nat} :
    read? 10 s = some n ↔ ∃ zeros, s = List.replicate zeros '0' ++ write 10 n := by
  have hcons : ∀ rest : List Char, rest ≠ [] → read? 10 ('0' :: rest) = read? 10 rest := by
    intro rest hrest
    cases rest with
    | nil => exact absurd rfl hrest
    | cons c rest => rfl
  constructor
  · intro h
    induction s with
    | nil => exact nomatch h
    | cons c rest ih =>
      by_cases hc : c = '0'
      · subst hc
        cases rest with
        | nil => exact ⟨0, by rw [← Option.some.inj h]; rfl⟩
        | cons d rest =>
          obtain ⟨zeros, hzeros⟩ := ih h
          exact ⟨zeros + 1, by rw [hzeros]; rfl⟩
      · refine ⟨0, eq_write_of_read? h ?_⟩
        rwa [List.head?_cons, ne_eq, Option.some.injEq]
  · rintro ⟨zeros, rfl⟩
    induction zeros with
    | zero => exact read?_write n
    | succ zeros ih =>
      rw [List.replicate_succ, List.cons_append, hcons _ fun hnil ↦ ?_, ih]
      rw [hnil] at ih
      exact nomatch ih

end Numeral

/-! ## Where a text is cut -/

/-- A text is cut at the first occurrence of a character. -/
theorem cutAt?_eq_some {mark : Char} {s before after : List Char} :
    cutAt? mark s = some (before, after) ↔ s = before ++ mark :: after ∧ mark ∉ before := by
  induction s generalizing before with
  | nil => simp [cutAt?]
  | cons c rest ih =>
    rw [cutAt?]
    split
    · next hc =>
      subst hc
      cases before with
      | nil => simp [eq_comm]
      | cons b before =>
        simp only [Option.some.injEq, Prod.mk.injEq, List.cons_append, List.cons.injEq, reduceCtorEq,
          false_and, List.mem_cons, not_or, false_iff, not_and]
        rintro ⟨rfl, -⟩ h
        exact absurd rfl h
    · next hc =>
      simp only [Option.map_eq_some_iff, Prod.exists, Prod.mk.injEq]
      constructor
      · rintro ⟨front, back, hcut, rfl, rfl⟩
        obtain ⟨hrest, hmark⟩ := ih.1 hcut
        exact ⟨by rw [hrest, List.cons_append], by simpa [Ne.symm hc] using hmark⟩
      · rintro ⟨heq, hmark⟩
        cases before with
        | nil => exact absurd (List.cons.inj heq).1 hc
        | cons b before =>
          obtain ⟨rfl, hrest⟩ := List.cons.inj heq
          exact ⟨before, after, ih.2 ⟨hrest, fun h ↦ hmark (List.mem_cons_of_mem _ h)⟩, rfl, rfl⟩

theorem dropLast?_eq_some {mark : Char} {s front : List Char} :
    dropLast? mark s = some front ↔ s = front ++ [mark] := by
  rw [dropLast?]
  split
  · next h => simp [List.reverse_eq_nil_iff.1 h]
  · next c rest h =>
    rw [List.reverse_eq_cons_iff.1 h]
    split
    · next hc => simp [hc]
    · next hc =>
      simp only [reduceCtorEq, false_iff]
      exact fun heq ↦ hc (List.cons.inj (List.append_inj_right' heq rfl)).1

/-- A text with a character that is no digit is no numeral. -/
theorem Numeral.read?_eq_none_of_mem {base : Nat} {c : Char} {digits : List Char}
    (hdigit : Numeral.digit? c = none) (hmem : c ∈ digits) : Numeral.read? base digits = none := by
  have hnone : ∀ (s : List Char) (value : Nat), c ∈ s → Numeral.continue? base value s = none := by
    intro s
    induction s with
    | nil => intro _ h; exact absurd h List.not_mem_nil
    | cons d rest ih =>
      intro value h
      rw [Numeral.continue?]
      rcases List.mem_cons.1 h with rfl | h
      · rw [Numeral.digitIn?, hdigit]
        rfl
      · split
        · rfl
        · exact ih _ h
  rw [Numeral.read?, if_neg (by simp [List.ne_nil_of_mem hmem]), hnone digits 0 hmem]

end Text
end FirmwareLane
