import FirmwareLane.Json.Printer
import FirmwareLane.Json.Token
import FirmwareLane.Proofs.Text.Numeral

/-!
# Printed tokens are scanned

The scanner goes from left to right, one token after the other, and stops a token where the printer
did: `Scans` says that some text gives some tokens in front of the rest of a text, and
`Scans.append` puts such facts together.  A quoted text is the token of the text, whatever follows
(`scans_quoted`).

A number is scanned as the number that was printed if what follows does not go on with it
(`IsDelimited`).  An integer is the token of the integer (`scans_integerText`).  A floating point
number is printed as a decimal with a point or an exponent (`isFloat_render`), so one is read again,
though not always the same (`scans_render`, `isFloating_reread`).
-/

set_option autoImplicit false
namespace FirmwareLane
namespace Json

open Text (Glyph)

namespace Token

/-! ## Some text gives some tokens -/

/-- Scanned in front of a rest, a text gives some tokens and leaves the rest. -/
def Scans (s : List Char) (ts : List Token) (rest : List Char) : Prop :=
  ∀ fuel, s.length + rest.length < fuel →
    ∃ fuel', rest.length < fuel' ∧
      scanWith fuel ((s ++ rest).map some) = ts ++ scanWith fuel' (rest.map some)

theorem Scans.append {s s' rest : List Char} {ts ts' : List Token} (h : Scans s ts (s' ++ rest))
    (h' : Scans s' ts' rest) : Scans (s ++ s') (ts ++ ts') rest := by
  intro fuel hfuel
  simp only [List.length_append] at hfuel
  obtain ⟨middle, hmiddle, heq⟩ := h fuel (by rw [List.length_append]; omega)
  rw [List.length_append] at hmiddle
  obtain ⟨last, hlast, heq'⟩ := h' middle hmiddle
  refine ⟨last, hlast, ?_⟩
  rw [List.append_assoc, List.append_assoc, heq, heq']

/-- A text that the scanner takes for one token. -/
theorem scans_of_next? {c : Char} {s rest : List Char} {t : Token} (hspace : isSpace c = false)
    (h : next? c ((s ++ rest).map some) = some (t, rest.map some)) : Scans (c :: s) [t] rest := by
  intro fuel hfuel
  rw [List.length_cons] at hfuel
  obtain ⟨fuel, rfl⟩ := Nat.exists_eq_succ_of_ne_zero (Nat.ne_zero_of_lt hfuel)
  refine ⟨fuel, by omega, ?_⟩
  rw [List.cons_append, List.map_cons, scanWith, hspace, h]
  rfl

/-- A text that is scanned to its end, but for a line end behind it. -/
theorem Scans.scan_eq {s : List Char} {ts : List Token} (h : Scans s ts []) :
    scan (s.map some) = ts := by
  obtain ⟨fuel, hfuel, heq⟩ := h (s.length + 1) (Nat.lt_succ_self _)
  obtain ⟨fuel, rfl⟩ := Nat.exists_eq_succ_of_ne_zero (Nat.ne_zero_of_lt hfuel)
  rw [List.append_nil] at heq
  rw [scan, List.length_map, heq]
  exact List.append_nil ts

theorem Scans.scan_line_eq {s : List Char} {ts : List Token} (h : Scans s ts ['\n']) :
    scan ((s ++ ['\n']).map some) = ts := by
  obtain ⟨fuel, hfuel, heq⟩ := h (s.length + 1 + 1) (Nat.lt_succ_self _)
  obtain ⟨fuel, rfl⟩ := Nat.exists_eq_succ_of_ne_zero (Nat.ne_zero_of_lt hfuel)
  obtain ⟨fuel, rfl⟩ :=
    Nat.exists_eq_succ_of_ne_zero (Nat.ne_zero_of_lt (Nat.lt_of_succ_lt_succ hfuel))
  rw [scan, List.length_map, List.length_append]
  exact heq.trans (List.append_nil ts)

/-! ## Quoted text -/

theorem hex4?_writePadded {n : Nat} (h : n < 0x20) (rest : List Glyph) :
    hex4? ((Text.Numeral.writePadded 16 4 n).map some ++ rest) = some (n, rest) := by
  have hall : ∀ n < 0x20, ∃ a b c d, Text.Numeral.writePadded 16 4 n = [a, b, c, d] ∧
      Text.Numeral.read? 16 [a, b, c, d] = some n := by
    intro n hn
    have hread : ∀ n < 0x20, Text.Numeral.read? 16 (Text.Numeral.writePadded 16 4 n) = some n ∧
        (Text.Numeral.writePadded 16 4 n).length = 4 := by decide +kernel
    obtain ⟨hvalue, hlength⟩ := hread n hn
    obtain ⟨a, b, c, d, heq⟩ := List.length_eq_four.1 hlength
    exact ⟨a, b, c, d, heq, heq ▸ hvalue⟩
  obtain ⟨a, b, c, d, heq, hvalue⟩ := hall n h
  simp only [heq, List.map_cons, List.map_nil, List.cons_append, List.nil_append, hex4?, hvalue]

/-- An escape stands for the character that it was made from. -/
theorem piece_escaped (c : Char) (rest : List Glyph) :
    piece ((escaped c).map some ++ rest) = .glyph (some c) rest := by
  by_cases hsimple : c = '"' ∨ c = '\\' ∨ c = '\n' ∨ c = '\r' ∨ c = '\t' ∨ c = '\x08' ∨ c = '\x0c'
  · rcases hsimple with rfl | rfl | rfl | rfl | rfl | rfl | rfl <;> rfl
  · simp only [not_or] at hsimple
    obtain ⟨hquote, hslash, hfeed, hreturn, htab, hback, hform⟩ := hsimple
    simp only [escaped, if_neg hquote, if_neg hslash, if_neg hfeed, if_neg hreturn, if_neg htab,
      if_neg hback, if_neg hform]
    by_cases hcontrol : c.toNat < 0x20
    · rw [if_pos hcontrol]
      have hhigh : isHighSurrogate c.toNat = false := by
        rw [isHighSurrogate, Bool.and_eq_false_iff]
        exact .inl (decide_eq_false (by omega))
      have hlow : isLowSurrogate c.toNat = false := by
        rw [isLowSurrogate, Bool.and_eq_false_iff]
        exact .inl (decide_eq_false (by omega))
      simp only [List.map_cons, List.cons_append, piece, hex4?_writePadded hcontrol, hhigh, hlow,
        Bool.false_eq_true, if_false, Char.ofNat_toNat]
    · rw [if_neg hcontrol]
      simp only [List.map_cons, List.map_nil, List.cons_append, List.nil_append]
      rw [piece.eq_def]
      split <;> simp_all

/-- A quoted text is read to its closing mark. -/
theorem quoted?_quoted (s : List Char) (rest : List Glyph) :
    ∀ (fuel : Nat) (done : List Glyph), (s.flatMap escaped).length < fuel →
      quoted? fuel done ((s.flatMap escaped ++ ['"']).map some ++ rest) =
        some (s.reverse.map some ++ done, rest) := by
  induction s with
  | nil =>
    intro fuel done hfuel
    obtain ⟨fuel, rfl⟩ := Nat.exists_eq_succ_of_ne_zero (Nat.ne_zero_of_lt hfuel)
    rfl
  | cons c s ih =>
    intro fuel done hfuel
    have hpos : 0 < (escaped c).length := by
      rw [List.length_pos_iff]
      unfold escaped
      grind
    obtain ⟨fuel, rfl⟩ := Nat.exists_eq_succ_of_ne_zero (Nat.ne_zero_of_lt hfuel)
    rw [List.flatMap_cons, List.length_append] at hfuel
    rw [List.flatMap_cons, List.append_assoc, List.map_append, List.append_assoc, quoted?,
      piece_escaped]
    simp only
    rw [ih fuel _ (by omega), List.reverse_cons, List.map_append, List.append_assoc]
    rfl

theorem ofGlyphs_reverse (s : String) : ofGlyphs (s.toList.reverse.map some) = .text (some s) := by
  have hall : ∀ cs : List Char, (cs.map some).mapM id = some cs := by
    intro cs
    induction cs with
    | nil => rfl
    | cons c cs ih => rw [List.map_cons, List.mapM_cons, ih]; rfl
  rw [ofGlyphs, ← List.map_reverse, List.reverse_reverse, hall, Option.map_some,
    String.ofList_toList]

/-- **A quoted text is the token of the text.** -/
theorem scans_quoted (s : String) (rest : List Char) : Scans (quoted s) [.text (some s)] rest := by
  refine scans_of_next? (by decide) ?_
  have hquoted := quoted?_quoted s.toList (rest.map some)
    (((s.toList.flatMap escaped ++ ['"'] ++ rest).map some).length + 1) []
    (by simp only [List.length_map, List.length_append]; omega)
  rw [List.append_nil, ← List.map_append] at hquoted
  show ((quoted? (((s.toList.flatMap escaped ++ ['"'] ++ rest).map some).length + 1) []
    ((s.toList.flatMap escaped ++ ['"'] ++ rest).map some)).map _) = _
  rw [hquoted]
  exact congrArg (fun t ↦ some (t, rest.map some)) (ofGlyphs_reverse s)

/-! ## Digits -/

/-- What follows digits does not go on with them. -/
def EndsDigits (rest : List Char) : Prop :=
  ∀ c, rest.head? = some c → ¬ ('0' ≤ c ∧ c ≤ '9')

/-- What follows a number does not go on with it. -/
def IsDelimited (rest : List Char) : Prop :=
  ∀ c, rest.head? = some c → c ∈ [',', ']', '\x7d', '\n']

theorem isDelimited_nil : IsDelimited [] := fun _ hc ↦ by cases hc

theorem isDelimited_cons {c : Char} (h : c ∈ [',', ']', '\x7d', '\n']) (rest : List Char) :
    IsDelimited (c :: rest) :=
  fun _ hc ↦ Option.some.inj hc ▸ h

theorem IsDelimited.eq_mark {c : Char} {rest : List Char} (h : IsDelimited (c :: rest)) :
    c = ',' ∨ c = ']' ∨ c = '\x7d' ∨ c = '\n' := by
  simpa using h c rfl

theorem IsDelimited.endsDigits {rest : List Char} (h : IsDelimited rest) : EndsDigits rest := by
  intro c hc
  obtain ⟨rest, rfl⟩ := List.head?_eq_some_iff.1 hc
  rcases h.eq_mark with rfl | rfl | rfl | rfl <;> decide

theorem endsDigits_cons {c : Char} (h : ¬ ('0' ≤ c ∧ c ≤ '9')) (rest : List Char) :
    EndsDigits (c :: rest) :=
  fun _ hc ↦ Option.some.inj hc ▸ h

theorem digits_digitChar {ds : List Nat} (h : ∀ d ∈ ds, d < 10) {rest : List Char}
    (hrest : EndsDigits rest) :
    digits ((ds.map Text.Numeral.digitChar ++ rest).map some) = (ds, rest.map some) := by
  induction ds with
  | nil =>
    cases rest with
    | nil => rfl
    | cons c rest =>
      rw [List.map_nil, List.nil_append, List.map_cons, digits, if_neg (hrest c rfl)]
  | cons d ds ih =>
    have hdigit : ∀ d < 10, ('0' ≤ Text.Numeral.digitChar d ∧ Text.Numeral.digitChar d ≤ '9') ∧
        (Text.Numeral.digitChar d).toNat - '0'.toNat = d := by decide
    obtain ⟨hrange, hvalue⟩ := hdigit d (h d List.mem_cons_self)
    rw [List.map_cons, List.cons_append, List.map_cons, digits, if_pos hrange,
      ih fun e he ↦ h e (List.mem_cons_of_mem _ he)]
    simp only [hvalue]

/-- The digits before the point of a number: at least one, and no zero in front of others. -/
structure IsWhole (ds : List Nat) : Prop where
  lt_ten : ∀ d ∈ ds, d < 10
  ne_nil : ds ≠ []
  not_lead : ds.head? = some 0 → ds = [0]

theorem isWhole_decimalDigits (n : Nat) : IsWhole (Text.Numeral.decimalDigits n) where
  lt_ten _ := Text.Numeral.lt_of_mem_decimalDigits
  ne_nil := Text.Numeral.decimalDigits_ne_nil n
  not_lead := Text.Numeral.decimalDigits_of_head_eq_zero

theorem isWhole_singleton {d : Nat} (h : d < 10) : IsWhole [d] where
  lt_ten e he := List.mem_singleton.1 he ▸ h
  ne_nil := List.cons_ne_nil _ _
  not_lead hhead := by rw [Option.some.inj hhead]

theorem IsWhole.not_faulty {ds : List Nat} (h : IsWhole ds) :
    ¬ (ds.isEmpty = true ∨ (ds.head? = some 0 ∧ 1 < ds.length)) := by
  rintro (hempty | ⟨hhead, hlength⟩)
  · exact h.ne_nil (List.isEmpty_iff.1 hempty)
  · rw [h.not_lead hhead] at hlength
    exact absurd hlength (by decide)

/-- A number is scanned from its sign or from its first digit on. -/
theorem scans_number {ds : List Nat} (h : IsWhole ds) (negative : Bool) (more rest : List Char)
    {t : Token}
    (hnumber : number? negative ((ds.map Text.Numeral.digitChar ++ more ++ rest).map some) =
      some (t, rest.map some)) :
    Scans ((if negative then ['-'] else []) ++ (ds.map Text.Numeral.digitChar ++ more)) [t]
      rest := by
  cases negative with
  | true => exact scans_of_next? (by decide) hnumber
  | false =>
    obtain ⟨d, ds, rfl⟩ := List.exists_cons_of_ne_nil h.ne_nil
    have hbegins : ∀ d < 10, isSpace (Text.Numeral.digitChar d) = false ∧
        ∀ rest, next? (Text.Numeral.digitChar d) rest =
          number? false (some (Text.Numeral.digitChar d) :: rest) := by
      intro d hd
      have hcases : d = 0 ∨ d = 1 ∨ d = 2 ∨ d = 3 ∨ d = 4 ∨ d = 5 ∨ d = 6 ∨ d = 7 ∨ d = 8 ∨
          d = 9 := by omega
      rcases hcases with rfl | rfl | rfl | rfl | rfl | rfl | rfl | rfl | rfl | rfl <;>
        exact ⟨rfl, fun _ ↦ rfl⟩
    obtain ⟨hspace, hnext⟩ := hbegins d (h.lt_ten d List.mem_cons_self)
    refine scans_of_next? hspace ?_
    rw [hnext]
    exact hnumber

theorem exponent?_delimited {rest : List Char} (hrest : IsDelimited rest) :
    exponent? (rest.map some) = some (none, rest.map some) := by
  cases rest with
  | nil => rfl
  | cons c rest =>
    rcases hrest.eq_mark with rfl | rfl | rfl | rfl <;> rfl

/-! ## Integers -/

/-- The digits of a number are read as one, up to what does not go on with them. -/
theorem number?_write (negative : Bool) (n : Nat) {rest : List Char} (hrest : IsDelimited rest) :
    number? negative ((Text.Numeral.write 10 n ++ rest).map some) =
      some (NumberParts.token ⟨negative, Text.Numeral.decimalDigits n, [], none, false⟩,
        rest.map some) := by
  have hwhole := isWhole_decimalDigits n
  rw [number?, Text.Numeral.write_eq_map, digits_digitChar hwhole.lt_ten hrest.endsDigits]
  simp only [if_neg hwhole.not_faulty]
  cases rest with
  | nil => rfl
  | cons c rest =>
    rcases hrest.eq_mark with rfl | rfl | rfl | rfl <;> rfl

theorem token_decimalDigits {negative : Bool} {n : Nat}
    (hsmall : if negative then 0 < n ∧ n ≤ Nat.pow 2 63 else n ≤ greatestSignificand) :
    NumberParts.token ⟨negative, Text.Numeral.decimalDigits n, [], none, false⟩ =
      .integer (if negative then -(n : Int) else n) := by
  have hvalue : decimalValue (Text.Numeral.decimalDigits n) = n :=
    Text.Numeral.foldl_decimalDigits n
  cases negative with
  | true =>
    simp only [if_true] at hsmall
    have hfits : ¬ (n = 0 ∨ Nat.pow 2 63 < n) := by omega
    simp only [NumberParts.token, hvalue, if_true, if_neg hfits, Bool.false_eq_true, if_false]
  | false =>
    simp only [Bool.false_eq_true, if_false] at hsmall
    simp only [NumberParts.token, hvalue, Bool.false_eq_true, if_false, if_pos hsmall]

/-- **An integer is the token of the integer.** -/
theorem scans_integerText {n : Int} (hleast : leastInteger ≤ n) (hgreatest : n ≤ greatestInteger)
    {rest : List Char} (hrest : IsDelimited rest) : Scans (integerText n) [.integer n] rest := by
  have htokens : ∀ negative : Bool, Scans ((if negative then ['-'] else []) ++
      Text.Numeral.write 10 n.natAbs) [NumberParts.token
        ⟨negative, Text.Numeral.decimalDigits n.natAbs, [], none, false⟩] rest := by
    intro negative
    have hnumber := number?_write negative n.natAbs hrest
    rw [Text.Numeral.write_eq_map] at hnumber ⊢
    have hscans := scans_number (isWhole_decimalDigits n.natAbs) negative [] rest
      (by rwa [List.append_nil])
    rwa [List.append_nil] at hscans
  by_cases hn : n < 0
  · have htext : integerText n = '-' :: Text.Numeral.write 10 n.natAbs := by
      rw [integerText, Text.Numeral.integer, if_pos hn, String.toList_ofList]
    have htoken := @token_decimalDigits true n.natAbs (by
      rw [leastInteger] at hleast
      simp only [if_true]
      omega)
    have hvalue : -(n.natAbs : Int) = n := by omega
    simp only [if_true, hvalue] at htoken
    rw [htext, ← htoken]
    exact htokens true
  · have htext : integerText n = Text.Numeral.write 10 n.natAbs := by
      rw [integerText, Text.Numeral.integer, if_neg hn, Text.Numeral.decimal, String.toList_ofList]
    have htoken := @token_decimalDigits false n.natAbs (by
      rw [greatestInteger] at hgreatest
      simp only [Bool.false_eq_true, if_false, greatestSignificand]
      omega)
    have hvalue : (n.natAbs : Int) = n := by omega
    simp only [Bool.false_eq_true, if_false, hvalue] at htoken
    rw [htext, ← htoken]
    exact htokens false

/-! ## Floating point numbers -/

/-- The token of a number with a point or an exponent. -/
def IsFloating (t : Token) : Prop := t = .hugeNumber ∨ ∃ x, t = .float x

theorem isFloating_token (negative : Bool) (ds fraction : List Nat) (e : Option (Bool × List Nat)) :
    IsFloating (NumberParts.token ⟨negative, ds, fraction, e, true⟩) := by
  simp only [NumberParts.token, if_true]
  cases NumberParts.float? ⟨negative, ds, fraction, e, true⟩ with
  | none => exact .inl rfl
  | some x => exact .inr ⟨x, rfl⟩

/-- A text that is read as one number with a point or an exponent, once its sign is read. -/
def IsFloat (negative : Bool) (s : List Char) : Prop :=
  ∃ ds more t, s = ds.map Text.Numeral.digitChar ++ more ∧ IsWhole ds ∧ IsFloating t ∧
    ∀ rest, IsDelimited rest →
      number? negative ((ds.map Text.Numeral.digitChar ++ more ++ rest).map some) =
        some (t, rest.map some)

variable {negative : Bool} {ds fraction : List Nat}

/-- A number is read on behind its point. -/
theorem number?_point (h : IsWhole ds) (hfraction : ∀ d ∈ fraction, d < 10) (hne : fraction ≠ [])
    {more rest : List Char} (hmore : EndsDigits (more ++ rest)) {e : Option (Bool × List Nat)}
    (hexponent : exponent? ((more ++ rest).map some) = some (e, rest.map some)) :
    number? negative ((ds.map Text.Numeral.digitChar ++
        '.' :: (fraction.map Text.Numeral.digitChar ++ more) ++ rest).map some) =
      some (NumberParts.token ⟨negative, ds, fraction, e, true⟩, rest.map some) := by
  have hpoint : EndsDigits
      ('.' :: (fraction.map Text.Numeral.digitChar ++ (more ++ rest))) :=
    endsDigits_cons (by decide) _
  have hfilled : ¬ fraction.isEmpty = true := mt List.isEmpty_iff.1 hne
  rw [List.append_assoc, List.cons_append, List.append_assoc, number?,
    digits_digitChar h.lt_ten hpoint]
  simp only [if_neg h.not_faulty, List.map_cons, digits_digitChar hfraction hmore, if_neg hfilled,
    hexponent, Option.map_some]

/-- A number without a point is read on at its exponent. -/
theorem number?_exponent (h : IsWhole ds) {more rest : List Char} {e : Bool × List Nat}
    (hexponent : exponent? (('e' :: more ++ rest).map some) = some (some e, rest.map some)) :
    number? negative ((ds.map Text.Numeral.digitChar ++ 'e' :: more ++ rest).map some) =
      some (NumberParts.token ⟨negative, ds, [], some e, true⟩, rest.map some) := by
  have hmark : EndsDigits ('e' :: more ++ rest) := endsDigits_cons (by decide) _
  rw [List.append_assoc, number?, digits_digitChar h.lt_ten hmark]
  simp only [if_neg h.not_faulty]
  show (exponent? (('e' :: more ++ rest).map some)).map _ = _
  rw [hexponent]
  rfl

/-- An exponent is read to its end. -/
theorem exponent?_write (below : Bool) (n : Nat) {rest : List Char} (hrest : IsDelimited rest) :
    exponent? (('e' :: (if below then '-' else '+') :: Text.Numeral.write 10 n ++ rest).map some) =
      some (some (below, Text.Numeral.decimalDigits n), rest.map some) := by
  have hdigits := digits_digitChar (isWhole_decimalDigits n).lt_ten hrest.endsDigits
  have hfilled : ¬ (Text.Numeral.decimalDigits n).isEmpty = true :=
    mt List.isEmpty_iff.1 (Text.Numeral.decimalDigits_ne_nil n)
  rw [← Text.Numeral.write_eq_map] at hdigits
  cases below <;>
    simp only [List.cons_append, List.map_cons, exponent?, if_true, Bool.false_eq_true, if_false,
      true_or, hdigits, if_neg hfilled]

theorem isFloat_point (negative : Bool) (h : IsWhole ds) (hfraction : ∀ d ∈ fraction, d < 10)
    (hne : fraction ≠ []) :
    IsFloat negative
      (ds.map Text.Numeral.digitChar ++ '.' :: fraction.map Text.Numeral.digitChar) := by
  refine ⟨ds, _, _, rfl, h, isFloating_token negative ds fraction none, fun rest hrest ↦ ?_⟩
  have hend : EndsDigits ([] ++ rest) := hrest.endsDigits
  have hnumber := @number?_point negative _ _ h hfraction hne _ _ hend _ (exponent?_delimited hrest)
  rwa [List.append_nil] at hnumber

/-- One digit before the point or none behind it, and an exponent. -/
theorem isFloat_exponent (negative below : Bool) {d : Nat} (hd : d < 10)
    (hfraction : ∀ d ∈ fraction, d < 10) (n : Nat) :
    IsFloat negative (Text.Numeral.digitChar d ::
      ((if fraction = [] then [] else '.' :: fraction.map Text.Numeral.digitChar) ++
        'e' :: (if below then '-' else '+') :: Text.Numeral.write 10 n)) := by
  have hwhole := isWhole_singleton hd
  let e : Option (Bool × List Nat) := some (below, Text.Numeral.decimalDigits n)
  by_cases hne : fraction = []
  · rw [if_pos hne, List.nil_append]
    refine ⟨[d], _, _, rfl, hwhole, isFloating_token negative [d] [] e, fun rest hrest ↦ ?_⟩
    exact number?_exponent hwhole (exponent?_write below n hrest)
  · rw [if_neg hne]
    refine ⟨[d], _, _, rfl, hwhole, isFloating_token negative [d] fraction e, fun rest hrest ↦ ?_⟩
    exact number?_point hwhole hfraction hne (endsDigits_cons (by decide) _)
      (exponent?_write below n hrest)

theorem map_digitChar_replicate (n : Nat) :
    (List.replicate n 0).map Text.Numeral.digitChar = List.replicate n '0' :=
  List.map_replicate

/-- The digits of a number other than zero, cut off or filled up behind the first one. -/
theorem isWhole_take {n count : Nat} (hn : n ≠ 0) (hcount : 0 < count) (zeros : Nat) :
    IsWhole ((Text.Numeral.decimalDigits n).take count ++ List.replicate zeros 0) := by
  obtain ⟨d, ds, hds⟩ := List.exists_cons_of_ne_nil (Text.Numeral.decimalDigits_ne_nil n)
  obtain ⟨count, rfl⟩ := Nat.exists_eq_succ_of_ne_zero (Nat.ne_of_gt hcount)
  refine ⟨fun e he ↦ ?_, ?_, fun hhead ↦ ?_⟩
  · rcases List.mem_append.1 he with he | he
    · exact Text.Numeral.lt_of_mem_decimalDigits (List.mem_of_mem_take he)
    · rw [List.eq_of_mem_replicate he]
      decide
  · rw [hds, List.take_succ_cons]
    exact List.cons_ne_nil _ _
  · rw [hds, List.take_succ_cons] at hhead
    have hzero := Text.Numeral.foldl_decimalDigits n
    rw [Text.Numeral.decimalDigits_of_head_eq_zero (by rw [hds]; exact hhead)] at hzero
    exact absurd hzero.symm hn

/-- A number below one, with its digits behind the point. -/
theorem isFloat_below_one (negative : Bool) (zeros n : Nat) :
    IsFloat negative ("0.".toList ++ List.replicate zeros '0' ++ Text.Numeral.write 10 n) := by
  have hlt : ∀ d ∈ List.replicate zeros 0 ++ Text.Numeral.decimalDigits n, d < 10 := by
    intro d hd
    rcases List.mem_append.1 hd with hd | hd
    · rw [List.eq_of_mem_replicate hd]
      decide
    · exact Text.Numeral.lt_of_mem_decimalDigits hd
  have hne : List.replicate zeros 0 ++ Text.Numeral.decimalDigits n ≠ [] :=
    List.append_ne_nil_of_right_ne_nil _ (Text.Numeral.decimalDigits_ne_nil n)
  have hfloat := isFloat_point negative (isWhole_singleton (show 0 < 10 by decide)) hlt hne
  rwa [List.map_append, map_digitChar_replicate, ← Text.Numeral.write_eq_map] at hfloat

/-- A number with digits on both sides of the point. -/
theorem isFloat_positional (negative : Bool) {n count : Nat} (hn : n ≠ 0) (hcount : 0 < count)
    (zeros : Nat) :
    IsFloat negative ((Text.Numeral.write 10 n).take count ++ List.replicate zeros '0' ++
      '.' :: (if ((Text.Numeral.write 10 n).drop count).isEmpty then ['0']
        else (Text.Numeral.write 10 n).drop count)) := by
  have hwhole := isWhole_take hn hcount zeros
  rw [Text.Numeral.write_eq_map, ← List.map_take, ← List.map_drop, ← map_digitChar_replicate,
    ← List.map_append, List.isEmpty_map]
  split
  · exact isFloat_point negative hwhole (show ∀ d ∈ [0], d < 10 by decide) (List.cons_ne_nil _ _)
  · next hfilled =>
    refine isFloat_point negative hwhole (fun d hd ↦ ?_) (mt List.isEmpty_iff.2 hfilled)
    exact Text.Numeral.lt_of_mem_decimalDigits (List.mem_of_mem_drop hd)

/-- **A decimal is written as a number with a point or an exponent.** -/
theorem isFloat_render (negative : Bool) (d : Binary64.Decimal) :
    IsFloat negative (d.render Binary64.jsonStyle) := by
  rw [Binary64.Decimal.render]
  -- zero, the digits behind the point or around it, and the digits with an exponent
  split
  · exact isFloat_point negative (isWhole_singleton (show 0 < 10 by decide))
      (show ∀ d ∈ [0], d < 10 by decide) (List.cons_ne_nil _ _)
  next hzero =>
  split
  · split
    · exact isFloat_below_one negative _ _
    · exact isFloat_positional negative hzero (by omega) _
  · have hlt := fun e ↦ @Text.Numeral.lt_of_mem_decimalDigits d.digits e
    obtain ⟨lead, fraction, hds⟩ :=
      List.exists_cons_of_ne_nil (Text.Numeral.decimalDigits_ne_nil d.digits)
    rw [hds] at hlt
    have hlead := hlt lead List.mem_cons_self
    have hfraction : ∀ e ∈ fraction, e < 10 := fun e he ↦ hlt e (List.mem_cons_of_mem _ he)
    simp only [Text.Numeral.write_eq_map d.digits, hds, List.map_cons]
    generalize d.power + _ - 1 = first
    have hfloat := fun below ↦ isFloat_exponent negative below hlead hfraction first.natAbs
    by_cases hbelow : first < 0
    · rw [if_pos hbelow]
      cases fraction <;> exact hfloat true
    · rw [if_neg hbelow]
      cases fraction <;> exact hfloat false

theorem exists_scans_render (x : Binary64) :
    ∃ t, IsFloating t ∧ ∀ rest, IsDelimited rest → Scans x.render [t] rest := by
  obtain ⟨ds, more, t, heq, hwhole, hfloating, hnumber⟩ :=
    isFloat_render x.negative (Binary64.shortest x)
  have htext : x.render =
      (if x.negative then ['-'] else []) ++ (ds.map Text.Numeral.digitChar ++ more) := by
    rw [Binary64.render, heq]
    cases x.negative <;> rfl
  refine ⟨t, hfloating, fun rest hrest ↦ ?_⟩
  rw [htext]
  exact scans_number hwhole x.negative more rest (hnumber rest hrest)

/-- The token that is read where a token was printed: of a floating point number there is only its
decimal, which may be too large to be read. -/
def reread : Token → Token
  | .float x => (scan (x.render.map some)).headD .fault
  | t => t

/-- **A floating point number is scanned as one.** -/
theorem scans_render (x : Binary64) {rest : List Char} (hrest : IsDelimited rest) :
    Scans x.render [reread (.float x)] rest := by
  obtain ⟨t, -, hscans⟩ := exists_scans_render x
  have hreread : reread (.float x) = t := by
    rw [reread, (hscans [] isDelimited_nil).scan_eq]
    rfl
  exact hreread ▸ hscans rest hrest

theorem isFloating_reread (x : Binary64) : IsFloating (reread (.float x)) := by
  obtain ⟨t, hfloating, hscans⟩ := exists_scans_render x
  rw [reread, (hscans [] isDelimited_nil).scan_eq]
  exact hfloating

end Token
end Json
end FirmwareLane
