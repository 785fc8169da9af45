import FirmwareLane.Proofs.Assembly.Targets
import FirmwareLane.Proofs.Text.Numeral

/-!
# Integer literals

The grammar of integer literals, and the integer that each of them stands for.  The reader takes a
literal apart from the front: the sign, the mark of a base, and then all the digits at once, with the
underscores dropped.  It follows the grammar, but for a magnitude that 63 bits cannot hold: then it
reads nothing.

## What is here

* `IsLiteral` is the grammar.  By `isMagnitude_append_map` there is a literal in each base for every
  number.
* `value?_of_isLiteral` and `isLiteral_of_value?` compare the reader with it, in two steps: the
  magnitude, then the sign.
* `spell` writes an integer out in a base, and `isLiteral_spell` says that this is a literal for it.
* `integers_read_exactly` is about operands.
-/

set_option autoImplicit false
namespace FirmwareLane
namespace Assembly

open Text.Numeral (digitIn? digit?)

namespace Literal

/-! ## The grammar -/

/-- The digits in the order of their values, with letters of either case. -/
def digitRows : List (List Char) := ["0123456789abcdef".toList, "0123456789ABCDEF".toList]

/-- The character is the digit for a value in a base. -/
def IsDigit (base : Nat) (c : Char) (d : Nat) : Prop :=
  d < base ∧ ∃ row ∈ digitRows, row[d]? = some c

/-- Digits in a base and their values, with underscores anywhere among them. -/
inductive HasDigits (base : Nat) : List Char → List Nat → Prop
  | nil : HasDigits base [] []
  | digit {c : Char} {d : Nat} {s : List Char} {values : List Nat} (hc : IsDigit base c d)
      (hs : HasDigits base s values) : HasDigits base (c :: s) (d :: values)
  | underscore {s : List Char} {values : List Nat} (hs : HasDigits base s values) :
      HasDigits base ('_' :: s) values

/-- The marks that announce a base. -/
def marks : List (List Char × Nat) :=
  [([], 10), (['0', 'x'], 16), (['0', 'X'], 16), (['0', 'b'], 2), (['0', 'B'], 2)]

/-- A literal without a sign: the mark of a base and at least one digit, the greatest one first. -/
inductive IsMagnitude : List Char → Nat → Prop
  | intro {mark digits : List Char} {base : Nat} {values : List Nat} (hmark : (mark, base) ∈ marks)
      (hdigits : HasDigits base digits values) (hne : values ≠ []) :
      IsMagnitude (mark ++ digits) (Nat.ofDigits base values.reverse)

/-- A literal for an integer. -/
inductive IsLiteral : List Char → Int → Prop
  | unsigned {body : List Char} {m : Nat} (h : IsMagnitude body m) : IsLiteral body m
  | plus {body : List Char} {m : Nat} (h : IsMagnitude body m) : IsLiteral ('+' :: body) m
  | minus {body : List Char} {m : Nat} (h : IsMagnitude body m) : IsLiteral ('-' :: body) (-m)

/-! ## Digits -/

theorem digitIn?_eq_some {base : Nat} (hbase : base ≤ 16) {c : Char} {d : Nat} :
    digitIn? base c = some d ↔ IsDigit base c d := by
  have hrow : ∀ d < 16, ∀ row ∈ digitRows, row[d]?.bind digit? = some d := by decide
  rw [digitIn?, Option.filter_eq_some_iff, decide_eq_true_eq, and_comm]
  refine and_congr_right fun hd ↦ ⟨fun hc ↦ ?_, ?_⟩
  · have hnumeral : ∀ k < 10, ∃ row ∈ digitRows, row[k]? = some (Char.ofNat ('0'.toNat + k)) := by
      decide
    have hlower : ∀ k < 6, ∃ row ∈ digitRows, row[k + 10]? = some (Char.ofNat ('a'.toNat + k)) := by
      decide
    have hupper : ∀ k < 6, ∃ row ∈ digitRows, row[k + 10]? = some (Char.ofNat ('A'.toNat + k)) := by
      decide
    rw [digit?] at hc
    split at hc
    · next hrange =>
      have hle : c.toNat ≤ 57 := hrange.2
      have hzero : '0'.toNat = 48 := rfl
      obtain ⟨row, hrow, hc'⟩ := hnumeral (c.toNat - '0'.toNat) (by omega)
      rw [Text.Numeral.ofNat_add_sub hrange.1, Option.some.inj hc] at hc'
      exact ⟨row, hrow, hc'⟩
    split at hc
    · next hrange =>
      have hvalue := Option.some.inj hc
      obtain ⟨row, hrow, hc'⟩ := hlower (c.toNat - 'a'.toNat) (by omega)
      rw [Text.Numeral.ofNat_add_sub hrange.1, hvalue] at hc'
      exact ⟨row, hrow, hc'⟩
    split at hc
    · next hrange =>
      have hvalue := Option.some.inj hc
      obtain ⟨row, hrow, hc'⟩ := hupper (c.toNat - 'A'.toNat) (by omega)
      rw [Text.Numeral.ofNat_add_sub hrange.1, hvalue] at hc'
      exact ⟨row, hrow, hc'⟩
    · cases hc
  · rintro ⟨row, hmem, hc⟩
    have hdigit := hrow d (Nat.lt_of_lt_of_le hd hbase) row hmem
    rwa [hc] at hdigit

theorem base_le_of_mem_marks {mark : List Char} {base : Nat} (h : (mark, base) ∈ marks) :
    base ≤ 16 := by
  have hall : ∀ entry ∈ marks, entry.2 ≤ 16 := by decide
  exact hall _ h

theorem one_lt_of_mem_marks {mark : List Char} {base : Nat} (h : (mark, base) ∈ marks) :
    1 < base := by
  have hall : ∀ entry ∈ marks, 1 < entry.2 := by decide
  exact hall _ h

/-- Without the underscores, there is one digit for each value. -/
theorem hasDigits_iff {base : Nat} (hbase : base ≤ 16) {s : List Char} {values : List Nat} :
    HasDigits base s values ↔
      List.Forall₂ (fun c d ↦ digitIn? base c = some d) (s.filter (· != '_')) values := by
  have hunderscore : ∀ d, digitIn? base '_' ≠ some d := fun d h ↦
    absurd (Option.filter_eq_some_iff.1 h).1 (by simp [digit?])
  constructor
  · intro h
    induction h with
    | nil => exact .nil
    | @digit c _ _ _ hc _ ih =>
      have hdigit := (digitIn?_eq_some hbase).2 hc
      have hne : c ≠ '_' := fun heq ↦ hunderscore _ (heq ▸ hdigit)
      rw [List.filter_cons_of_pos (by simpa using hne)]
      exact .cons hdigit ih
    | underscore _ ih => exact ih
  · intro h
    induction s generalizing values with
    | nil =>
      cases h
      exact .nil
    | cons c rest ih =>
      by_cases hc : c = '_'
      · subst hc
        exact .underscore (ih h)
      · rw [List.filter_cons_of_pos (by simpa using hc)] at h
        cases h with
        | cons hdigit hrest => exact .digit ((digitIn?_eq_some hbase).1 hdigit) (ih hrest)

theorem HasDigits.of_mem {base : Nat} {s : List Char} {values : List Nat}
    (h : HasDigits base s values) {c : Char} (hc : c ∈ s) : c = '_' ∨ ∃ d, IsDigit base c d := by
  induction h with
  | nil => exact absurd hc List.not_mem_nil
  | @digit _ d _ _ hdigit _ ih =>
    rcases List.mem_cons.1 hc with rfl | hc
    · exact .inr ⟨d, hdigit⟩
    · exact ih hc
  | underscore _ ih => exact (List.mem_cons.1 hc).elim .inl ih

theorem read?_eq_some {base m : Nat} (hbase : base ≤ 16) {s : List Char} :
    Text.Numeral.read? base (s.filter (· != '_')) = some m ↔
      ∃ values, HasDigits base s values ∧ values ≠ [] ∧ Nat.ofDigits base values.reverse = m := by
  rw [Text.Numeral.read?_eq_some]
  constructor
  · rintro ⟨hne, values, hvalues, hm⟩
    refine ⟨values, (hasDigits_iff hbase).2 hvalues, ?_, hm⟩
    rintro rfl
    exact hne (List.forall₂_nil_right_iff.1 hvalues)
  · rintro ⟨values, hvalues, hne, hm⟩
    refine ⟨fun hnil ↦ hne ?_, values, (hasDigits_iff hbase).1 hvalues, hm⟩
    have hdigits := (hasDigits_iff hbase).1 hvalues
    rw [hnil] at hdigits
    exact List.forall₂_nil_left_iff.1 hdigits

/-! ## Digits that are written -/

theorem hasDigits_map {base : Nat} {char : Nat → Char} {values : List Nat}
    (h : ∀ d ∈ values, IsDigit base (char d) d) : HasDigits base (values.map char) values := by
  induction values with
  | nil => exact .nil
  | cons d values ih =>
    exact .digit (h d List.mem_cons_self) (ih fun e he ↦ h e (List.mem_cons_of_mem _ he))

/-- **Every number has a literal in every base**, whichever characters its digits are written with. -/
theorem isMagnitude_append_map {mark : List Char} {base : Nat} (hmark : (mark, base) ∈ marks)
    {char : Nat → Char} (hchar : ∀ d < base, IsDigit base (char d) d) (n : Nat) :
    IsMagnitude (mark ++ (Text.Numeral.digitsIn base n).map char) n := by
  have hdigits : HasDigits base ((Text.Numeral.digitsIn base n).map char)
      (Text.Numeral.digitsIn base n) :=
    hasDigits_map fun d hd ↦ hchar d (Text.Numeral.lt_of_mem_digitsIn (one_lt_of_mem_marks hmark) hd)
  have hmagnitude := IsMagnitude.intro hmark hdigits (Text.Numeral.digitsIn_ne_nil base n)
  rwa [Text.Numeral.ofDigits_digitsIn] at hmagnitude

theorem isDigit_digitChar {base d : Nat} (hbase : base ≤ 16) (hd : d < base) :
    IsDigit base (Text.Numeral.digitChar d) d := by
  have hall : ∀ d < 16, ∃ row ∈ digitRows, row[d]? = some (Text.Numeral.digitChar d) := by decide
  exact ⟨hd, hall d (Nat.lt_of_lt_of_le hd hbase)⟩

theorem isDigit_toUpper_digitChar {base d : Nat} (hbase : base ≤ 16) (hd : d < base) :
    IsDigit base (Text.Numeral.digitChar d).toUpper d := by
  have hall : ∀ d < 16, ∃ row ∈ digitRows, row[d]? = some (Text.Numeral.digitChar d).toUpper := by
    decide
  exact ⟨hd, hall d (Nat.lt_of_lt_of_le hd hbase)⟩

/-! ## The base and the magnitude -/

/-- The mark of the base is found in front of the digits. -/
theorem base_append {mark digits : List Char} {radix : Nat} {values : List Nat}
    (hmark : (mark, radix) ∈ marks) (hdigits : HasDigits radix digits values) :
    base (mark ++ digits) = (radix, digits) := by
  have hentries : (mark = [] ∧ radix = 10) ∨
      (mark, radix) ∈ [(['0', 'x'], 16), (['0', 'X'], 16), (['0', 'b'], 2), (['0', 'B'], 2)] := by
    simpa [marks] using hmark
  rcases hentries with ⟨rfl, rfl⟩ | hmarked
  -- a decimal digit is not the second character of a mark
  · have hletter : ∀ c, digitIn? 10 c = none → c ≠ '_' → c ∉ digits := by
      intro c hnone hc hmem
      obtain rfl | ⟨d, hd⟩ := hdigits.of_mem hmem
      · exact hc rfl
      · exact absurd (hnone.symm.trans ((digitIn?_eq_some (by decide)).2 hd)) (by simp)
    rw [List.nil_append]
    unfold base
    split
    · exact absurd (List.mem_cons_of_mem _ List.mem_cons_self) (hletter 'x' (by decide) (by decide))
    · exact absurd (List.mem_cons_of_mem _ List.mem_cons_self) (hletter 'X' (by decide) (by decide))
    · exact absurd (List.mem_cons_of_mem _ List.mem_cons_self) (hletter 'b' (by decide) (by decide))
    · exact absurd (List.mem_cons_of_mem _ List.mem_cons_self) (hletter 'B' (by decide) (by decide))
    · rfl
  · simp only [List.mem_cons, Prod.mk.injEq, List.not_mem_nil, or_false] at hmarked
    rcases hmarked with ⟨rfl, rfl⟩ | ⟨rfl, rfl⟩ | ⟨rfl, rfl⟩ | ⟨rfl, rfl⟩ <;> rfl

theorem exists_mark (body : List Char) :
    ∃ mark, (mark, (base body).1) ∈ marks ∧ body = mark ++ (base body).2 := by
  fun_cases base body with
  | case1 digits => exact ⟨['0', 'x'], by simp [marks], rfl⟩
  | case2 digits => exact ⟨['0', 'X'], by simp [marks], rfl⟩
  | case3 digits => exact ⟨['0', 'b'], by simp [marks], rfl⟩
  | case4 digits => exact ⟨['0', 'B'], by simp [marks], rfl⟩
  | case5 => exact ⟨[], by simp [marks], rfl⟩

theorem magnitude?_eq (body : List Char) :
    magnitude? body =
      (Text.Numeral.read? (base body).1 ((base body).2.filter (· != '_'))).filter (· < bound) := rfl

/-- **The magnitude of a literal is read**, if it is not too large. -/
theorem magnitude?_of_isMagnitude {body : List Char} {m : Nat} (h : IsMagnitude body m) :
    magnitude? body = if m < bound then some m else none := by
  cases h with
  | intro hmark hdigits hne =>
    have hread := (read?_eq_some (base_le_of_mem_marks hmark)).2 ⟨_, hdigits, hne, rfl⟩
    rw [magnitude?, base_append hmark hdigits]
    simp only [hread, Option.filter_some, decide_eq_true_eq]

/-- A magnitude that is read is one of the grammar. -/
theorem isMagnitude_of_magnitude? {body : List Char} {m : Nat} (h : magnitude? body = some m) :
    IsMagnitude body m ∧ m < bound := by
  rw [magnitude?_eq] at h
  obtain ⟨hread, hm⟩ := Option.filter_eq_some_iff.1 h
  obtain ⟨mark, hmark, hbody⟩ := exists_mark body
  obtain ⟨values, hdigits, hne, rfl⟩ := (read?_eq_some (base_le_of_mem_marks hmark)).1 hread
  have hgrammar := IsMagnitude.intro hmark hdigits hne
  rw [← hbody] at hgrammar
  exact ⟨hgrammar, of_decide_eq_true hm⟩

/-! ## The sign -/

theorem value?_eq (s : List Char) :
    value? s =
      (magnitude? (sign s).2).map fun (m : Nat) ↦ if (sign s).1 then -(m : Int) else (m : Int) := by
  rw [value?]
  cases hmagnitude : magnitude? (sign s).2 <;> simp [hmagnitude]

theorem sign_of_head {s : List Char} (hminus : s.head? ≠ some '-') (hplus : s.head? ≠ some '+') :
    sign s = (false, s) := by
  unfold sign
  split
  · exact absurd rfl hminus
  · exact absurd rfl hplus
  · rfl

theorem IsMagnitude.ne_nil {body : List Char} {m : Nat} (h : IsMagnitude body m) : body ≠ [] := by
  cases h with
  | intro _ hdigits hne =>
    intro hnil
    rw [(List.append_eq_nil_iff.1 hnil).2] at hdigits
    cases hdigits
    exact hne rfl

/-- A literal is written with letters, digits and underscores behind its sign. -/
theorem IsMagnitude.of_mem {body : List Char} {m : Nat} (h : IsMagnitude body m) {c : Char}
    (hc : c ∈ body) : isIdentifierPart c = true := by
  cases h with
  | intro hmark hdigits _ =>
    have hmarks : ∀ entry ∈ marks, entry.1.all isIdentifierPart = true := by decide
    have hrows : ∀ row ∈ digitRows, row.all isIdentifierPart = true := by decide
    rcases List.mem_append.1 hc with hc | hc
    · exact List.all_eq_true.1 (hmarks _ hmark) c hc
    · rcases hdigits.of_mem hc with rfl | ⟨d, -, row, hrow, hd⟩
      · decide
      · exact List.all_eq_true.1 (hrows row hrow) c (List.mem_of_getElem? hd)

theorem sign_of_isMagnitude {body : List Char} {m : Nat} (h : IsMagnitude body m) :
    sign body = (false, body) :=
  sign_of_head (fun hhead ↦ absurd (h.of_mem (List.mem_of_head? hhead)) (by decide))
    (fun hhead ↦ absurd (h.of_mem (List.mem_of_head? hhead)) (by decide))

/-- **A literal is read as its integer**, if its magnitude is not too large. -/
theorem value?_of_isLiteral {s : List Char} {n : Int} (h : IsLiteral s n) :
    value? s = if n.natAbs < bound then some n else none := by
  have hmap : ∀ (m : Nat) (f : Nat → Int), (if m < bound then some m else none).map f =
      if m < bound then some (f m) else none := fun m f ↦ apply_ite (Option.map f) _ _ _
  cases h with
  | unsigned h =>
    rw [value?_eq, sign_of_isMagnitude h, magnitude?_of_isMagnitude h, hmap]
    rfl
  | plus h =>
    rw [value?_eq, sign, magnitude?_of_isMagnitude h, hmap]
    rfl
  | minus h =>
    rw [value?_eq, sign, magnitude?_of_isMagnitude h, hmap, Int.natAbs_neg]
    rfl

/-- An integer that is read is one of the grammar. -/
theorem isLiteral_of_value? {s : List Char} {n : Int} (h : value? s = some n) :
    IsLiteral s n ∧ n.natAbs < bound := by
  rw [value?_eq] at h
  obtain ⟨m, hm, rfl⟩ := Option.map_eq_some_iff.1 h
  obtain ⟨hmagnitude, hlt⟩ := isMagnitude_of_magnitude? hm
  by_cases hminus : s.head? = some '-'
  · obtain ⟨body, rfl⟩ := List.head?_eq_some_iff.1 hminus
    exact ⟨.minus hmagnitude, by simpa [sign] using hlt⟩
  by_cases hplus : s.head? = some '+'
  · obtain ⟨body, rfl⟩ := List.head?_eq_some_iff.1 hplus
    exact ⟨.plus hmagnitude, by simpa [sign] using hlt⟩
  · rw [sign_of_head hminus hplus] at hmagnitude ⊢
    exact ⟨.unsigned hmagnitude, by simpa using hlt⟩

/-- **What is read of an operand**: the integer that it is a literal for, up to a bound. -/
theorem read?_eq_some_iff {operand : List Char} {n : Int} :
    read? operand = some n ↔ IsLiteral (Text.trim operand) n ∧ n.natAbs < bound := by
  refine ⟨isLiteral_of_value?, fun ⟨h, hlt⟩ ↦ ?_⟩
  rw [read?, value?_of_isLiteral h, if_pos hlt]

/-! ## Integers as operands -/

/-- **The magnitude of a literal has a negative of 64 bits**: it is not the one number that has
none. -/
theorem negatable_of_magnitude? {body : List Char} {m : Nat} (h : magnitude? body = some m) :
    Int64.ofNat m ≠ Int64.minValue ∧ (Int64.ofNat m).toInt = m ∧ (-Int64.ofNat m).toInt = -m := by
  have hlt : m < 2 ^ 63 := (isMagnitude_of_magnitude? h).2
  have hvalue : (Int64.ofNat m).toInt = m := Int64.toInt_ofNat_of_lt hlt
  refine ⟨fun heq ↦ ?_, hvalue, Int64.toInt_neg_ofNat_of_le (Nat.le_of_lt hlt)⟩
  rw [heq, Int64.toInt_minValue] at hvalue
  omega

theorem IsLiteral.trim_eq {s : List Char} {n : Int} (h : IsLiteral s n) : Text.trim s = s := by
  refine Text.trim_eq_self fun c hc ↦ ?_
  have hbody : ∀ {body : List Char} {m : Nat}, IsMagnitude body m → c ∈ body →
      Text.isBlank c = false := fun hm hc ↦ isBlank_of_isIdentifierPart (hm.of_mem hc)
  cases h with
  | unsigned hm => exact hbody hm hc
  | plus hm | minus hm =>
    rcases List.mem_cons.1 hc with rfl | hc
    · decide
    · exact hbody hm hc

/-- An integer written out: a minus sign if it is negative, the mark of a base, and the digits of
its magnitude in that base, with letters of either case. -/
def spell (mark : List Char) (base : Nat) (upper : Bool) (v : Int) : String :=
  let digits := Text.Numeral.write base v.natAbs
  String.ofList ((if v < 0 then ['-'] else []) ++
    (mark ++ if upper then digits.map Char.toUpper else digits))

variable {mark : List Char} {base : Nat}

theorem isMagnitude_append_write (hmark : (mark, base) ∈ marks) (upper : Bool) (m : Nat) :
    IsMagnitude (mark ++ if upper then (Text.Numeral.write base m).map Char.toUpper
      else Text.Numeral.write base m) m := by
  have hbase := base_le_of_mem_marks hmark
  rw [Text.Numeral.write_eq_map_digitsIn (one_lt_of_mem_marks hmark), List.map_map]
  cases upper with
  | false => exact isMagnitude_append_map hmark (fun _ ↦ isDigit_digitChar hbase) m
  | true => exact isMagnitude_append_map hmark (fun _ ↦ isDigit_toUpper_digitChar hbase) m

/-- Every integer has a literal in every base. -/
theorem isLiteral_spell (hmark : (mark, base) ∈ marks) (upper : Bool) (v : Int) :
    IsLiteral (spell mark base upper v).toList v := by
  have hmagnitude := isMagnitude_append_write hmark upper v.natAbs
  rw [spell, String.toList_ofList]
  split
  · next hneg =>
    have hv : -(v.natAbs : Int) = v := by omega
    have hliteral := IsLiteral.minus hmagnitude
    rwa [hv] at hliteral
  · next hneg =>
    have hv : (v.natAbs : Int) = v := by omega
    have hliteral := IsLiteral.unsigned hmagnitude
    rwa [hv] at hliteral

end Literal

theorem Operand.integer_eq_ok {operand : String} {n : Int} :
    Operand.integer operand = .ok n ↔ Literal.read? operand.toList = some n := by
  rw [Operand.integer]
  cases Literal.read? operand.toList <;> simp

/-- **Integers are read exactly.**  An operand is the integer that it is a literal for, blanks around
it apart: an optional sign, the mark of a base, and at least one digit of that base, with underscores
anywhere among the digits, in front of them and behind them.  Whatever is no literal, and a literal
of a magnitude above `2 ^ 63 - 1`, is refused as it is written.  So the magnitude of an integer that
is read has a negative of 64 bits, and with the sign that is the integer.  Every integer up to that
magnitude is read back from what it is written as in any base, with letters of either case. -/
theorem integers_read_exactly :
    (∀ (operand : String) (n : Int), Operand.integer operand = .ok n ↔
      Literal.IsLiteral (Text.trim operand.toList) n ∧ n.natAbs ≤ 2 ^ 63 - 1) ∧
    (∀ operand : String,
      (¬ ∃ n, Literal.IsLiteral (Text.trim operand.toList) n ∧ n.natAbs ≤ 2 ^ 63 - 1) →
        Operand.integer operand = .error (.invalidImmediate (Text.trimmed operand))) ∧
    (∀ (operand : String) (negative : Bool) (body : List Char) (m : Nat),
      Literal.sign (Text.trim operand.toList) = (negative, body) →
      Literal.magnitude? body = some m →
        Int64.ofNat m ≠ Int64.minValue ∧ (Int64.ofNat m).toInt = m ∧
          (-Int64.ofNat m).toInt = -m ∧
          Operand.integer operand =
            .ok (if negative then -Int64.ofNat m else Int64.ofNat m).toInt) ∧
    ∀ (mark : List Char) (base : Nat) (upper : Bool) (v : Int), (mark, base) ∈ Literal.marks →
      v.natAbs ≤ 2 ^ 63 - 1 → Operand.integer (Literal.spell mark base upper v) = .ok v := by
  have hread : ∀ (operand : String) (n : Int), Operand.integer operand = .ok n ↔
      Literal.IsLiteral (Text.trim operand.toList) n ∧ n.natAbs ≤ 2 ^ 63 - 1 := by
    intro operand n
    have hbound : Literal.bound = 2 ^ 63 := rfl
    rw [Operand.integer_eq_ok, Literal.read?_eq_some_iff, hbound]
    exact and_congr_right fun _ ↦ ⟨Nat.le_sub_one_of_lt, fun h ↦ by omega⟩
  refine ⟨hread, fun operand hno ↦ ?_, fun operand negative body m hsign hm ↦ ?_,
    fun mark base upper v hmark hv ↦ ?_⟩
  · cases hvalue : Literal.read? operand.toList with
    | none => rw [Operand.integer, hvalue]
    | some n => exact absurd ⟨n, (hread operand n).1 (Operand.integer_eq_ok.2 hvalue)⟩ hno
  · obtain ⟨hne, hvalue, hnegative⟩ := Literal.negatable_of_magnitude? hm
    refine ⟨hne, hvalue, hnegative, Operand.integer_eq_ok.2 ?_⟩
    rw [Literal.read?, Literal.value?_eq, hsign, hm]
    cases negative with
    | false => exact congrArg some hvalue.symm
    | true => exact congrArg some hnegative.symm
  · have hliteral := Literal.isLiteral_spell hmark upper v
    refine (hread _ v).2 ⟨?_, hv⟩
    rwa [hliteral.trim_eq]

theorem integers_read_exactly_of_greatest :
    Literal.IsLiteral (Text.trim " -0X7fff_FFFF_ffff_FFFF\t".toList) (-9223372036854775807) ∧
      Operand.integer "0x8000000000000000" = .error (.invalidImmediate "0x8000000000000000") ∧
      Operand.integer " 0b_+1 " = .error (.invalidImmediate "0b_+1") ∧
      Int64.ofNat 9223372036854775807 ≠ Int64.minValue ∧
      Operand.integer "-9223372036854775807" =
        .ok (-Int64.ofNat 9223372036854775807).toInt ∧
      Literal.spell ['0', 'X'] 16 true (-9223372036854775807) = "-0X7FFFFFFFFFFFFFFF" ∧
      Operand.integer (Literal.spell ['0', 'X'] 16 true (-9223372036854775807)) =
        .ok (-9223372036854775807) := by
  obtain ⟨hread, hrefused, hnegated, hspelled⟩ := integers_read_exactly
  have hno : ∀ operand : String, Literal.read? operand.toList = none →
      ¬ ∃ n, Literal.IsLiteral (Text.trim operand.toList) n ∧ n.natAbs ≤ 2 ^ 63 - 1 := by
    rintro operand hnone ⟨n, hn⟩
    exact nomatch hnone.symm.trans (Operand.integer_eq_ok.1 ((hread operand n).2 hn))
  obtain ⟨hne, -, -, hnegative⟩ := hnegated "-9223372036854775807" true
    "9223372036854775807".toList 9223372036854775807 (by decide +kernel) (by decide +kernel)
  refine ⟨((hread " -0X7fff_FFFF_ffff_FFFF\t" _).1 (by decide +kernel)).1,
    hrefused _ (hno _ (by decide +kernel)), ?_, hne, hnegative, by decide +kernel,
    hspelled _ _ true _ (by decide) (by decide)⟩
  rw [hrefused " 0b_+1 " (hno _ (by decide +kernel))]
  decide +kernel

end Assembly
end FirmwareLane
