import FirmwareLane.Assembly.Program
import FirmwareLane.Proofs.Assembly.Sizes
import Mathlib.Algebra.GroupWithZero.Nat
import Mathlib.Data.List.Zip

/-!
# The layout of a program and its words

A program is laid out before any of it is resolved, from the sizes of its statements alone, and its
words are put out afterwards, from what the statements resolve to.  Nothing in the second half looks
at an address again to place a word: the words are simply put one after another.  That they end up
where the layout said is therefore a fact about both halves together, and every branch of the
program depends on it.

## What is here

* `Laid` is what it means for lines to have been laid out: it has one constructor for each thing a
  line can be, and `laid_of_ofLines` reads it off a layout that was computed.  Every fact about
  layouts below is an induction on it.
* `Emitted` pairs the statements of a layout with the words that they were resolved to, and
  `emitted_of_words` reads it off a program that was put out.
* `wordsAbove` is the part of those words that stands above a line.  Addresses of statements and of
  labels are four times its length (`Laid.toNat_address`, `Laid.lookup_labels`), as long as the
  words are few enough for an address to reach them all.
* `exists_of_assemble` finds the line that a program is refused at: whether the failure was found
  when the lines were read or when the statements were resolved, something is declared or written
  there.
* `words_at_layout` is the statement about whole source texts.
-/

set_option autoImplicit false
namespace FirmwareLane
namespace Assembly

open Outcome

/-! ## What stands on the lines -/

/-- The labels that a line declares. -/
def labelsOn (text : List Char) : List String :=
  match Line.read text with
  | .ok line => line.labels
  | .error _ => []

/-- The statement on a line of a number, if there is one. -/
def statementOn (text : List Char) (line : Nat) : Option Statement :=
  match Line.read text with
  | .ok ⟨_, some written⟩ => some (written.statement line)
  | _ => none

/-- The statements on lines that are numbered from one on, in their order. -/
def statementsFrom (first : Nat) (lines : List (List Char)) : List Statement :=
  (lines.zipIdx first).filterMap fun numbered ↦ statementOn numbered.1 numbered.2

/-- The statements of a source text, in their order. -/
def statementsOf (source : String) : List Statement :=
  statementsFrom 1 (Text.lines source.toList)

theorem statementsFrom_cons (first : Nat) (text : List Char) (rest : List (List Char)) :
    statementsFrom first (text :: rest) =
      (statementOn text first).toList ++ statementsFrom (first + 1) rest := by
  rw [statementsFrom, List.zipIdx_cons, List.filterMap_cons]
  dsimp only
  cases statementOn text first <;> rfl

/-! ## Declaring labels -/

theorem onLine_eq_ok {α : Type} {line : Nat} {result : Except Fault α} {a : α} :
    onLine line result = .ok a ↔ result = .ok a := mapError_eq_ok

/-- The labels afterwards are the labels before and the declared ones, at their address. -/
theorem lookup_declare {address : Word} {labels labels' : Labels} {names : List String}
    (h : declare address labels names = .ok labels') {name : String} {a : Word} :
    labels'.lookup name = some a ↔
      labels.lookup name = some a ∨ name ∈ names ∧ a = address := by
  induction names generalizing labels with
  | nil => simp [← Except.ok.inj h]
  | cons declared rest ih =>
    rw [declare] at h
    split at h
    · simp at h
    · next hfree =>
      rw [Option.not_isSome_iff_eq_none] at hfree
      rw [ih h, Keyed.lookup_cons, List.mem_cons]
      by_cases hname : name = declared
      · subst hname
        simp only [if_true, hfree, Option.some.injEq, true_or, true_and, eq_comm (a := address)]
        tauto
      · simp [hname]

/-! ## Lines that have been laid out -/

/-- The lines from one on have been laid out: the first of them has a number and an address, and
the lines before it declared labels. -/
inductive Laid : Nat → Word → Labels → List (List Char) → Layout → Prop
  | nil (line : Nat) (address : Word) (labels : Labels) : Laid line address labels [] ⟨[], labels⟩
  | blank {line : Nat} {address : Word} {labels labels' : Labels} {text : List Char}
      {rest : List (List Char)} {layout : Layout} {names : List String}
      (hread : Line.read text = .ok ⟨names, none⟩)
      (hdeclare : declare address labels names = .ok labels')
      (hrest : Laid (line + 1) address labels' rest layout) :
      Laid line address labels (text :: rest) layout
  | statement {line : Nat} {address : Word} {labels labels' : Labels} {text : List Char}
      {rest : List (List Char)} {layout : Layout} {names : List String} {written : Written}
      {size : Nat}
      (hread : Line.read text = .ok ⟨names, some written⟩)
      (hdeclare : declare address labels names = .ok labels')
      (hsize : (written.statement line).size = .ok size)
      (hrest : Laid (line + 1) (address + BitVec.ofNat 32 (4 * size)) labels' rest layout) :
      Laid line address labels (text :: rest)
        ⟨⟨address, written.statement line⟩ :: layout.placed, layout.labels⟩

theorem laid_of_ofLines {line : Nat} {address : Word} {labels : Labels}
    {lines : List (List Char)} {layout : Layout}
    (h : Layout.ofLines line address labels lines = .ok layout) :
    Laid line address labels lines layout := by
  induction lines generalizing line address labels layout with
  | nil => exact Except.ok.inj h ▸ Laid.nil line address labels
  | cons text rest ih =>
    rw [Layout.ofLines] at h
    obtain ⟨⟨names, instruction⟩, hread, h⟩ := bind_eq_ok.1 h
    obtain ⟨labels', hdeclare, h⟩ := bind_eq_ok.1 h
    rw [onLine_eq_ok] at hread hdeclare
    cases instruction with
    | none => exact .blank hread hdeclare (ih h)
    | some written =>
      obtain ⟨size, hsize, h⟩ := bind_eq_ok.1 h
      obtain ⟨below, hbelow, h⟩ := bind_eq_ok.1 h
      rw [← pure_eq_ok.1 h]
      exact .statement hread hdeclare (onLine_eq_ok.1 hsize) (ih hbelow)

namespace Laid

variable {line : Nat} {address : Word} {labels : Labels} {lines : List (List Char)}
  {layout : Layout}

/-- **The statements of a layout are those on the lines**, in their order. -/
theorem map_statement (h : Laid line address labels lines layout) :
    layout.placed.map (·.statement) = statementsFrom line lines := by
  induction h with
  | nil => rfl
  | blank hread _ _ ih => rw [ih, statementsFrom_cons, statementOn, hread]; rfl
  | statement hread _ _ _ ih =>
    rw [List.map_cons, ih, statementsFrom_cons, statementOn, hread]
    rfl

/-- Every statement of a layout has a size. -/
theorem exists_size (h : Laid line address labels lines layout) {p : Placed}
    (hp : p ∈ layout.placed) : ∃ n, p.statement.size = .ok n := by
  induction h with
  | nil => simp at hp
  | blank _ _ _ ih => exact ih hp
  | statement _ _ hsize _ ih =>
    rcases List.mem_cons.1 hp with rfl | hp
    · exact ⟨_, hsize⟩
    · exact ih hp

/-- A statement stands on no line above the first one. -/
theorem le_line (h : Laid line address labels lines layout) {p : Placed}
    (hp : p ∈ layout.placed) : line ≤ p.statement.line := by
  induction h with
  | nil => simp at hp
  | blank _ _ _ ih => exact Nat.le_of_succ_le (ih hp)
  | statement _ _ _ _ ih =>
    rcases List.mem_cons.1 hp with rfl | hp
    · exact Nat.le_refl _
    · exact Nat.le_of_succ_le (ih hp)

end Laid

/-! ## The words that a layout is resolved to -/

/-- The statements of a layout, each with the words that it was resolved to. -/
structure Emitted (layout : Layout) (pairs : List (Placed × List Word)) : Prop where
  placed : pairs.map (·.1) = layout.placed
  wordsOf : ∀ pair ∈ pairs, layout.wordsOf pair.1 = .ok pair.2

theorem exists_emitted {layout : Layout} {words : List Word} (h : layout.words = .ok words) :
    ∃ pairs, Emitted layout pairs ∧ words = pairs.flatMap (·.2) := by
  obtain ⟨chunks, hchunks, hwords⟩ := bind_eq_ok.1 h
  have hall := mapM_eq_ok.1 hchunks
  have hlength := hall.length_eq
  refine ⟨layout.placed.zip chunks, ⟨List.map_fst_zip (Nat.le_of_eq hlength), ?_⟩, ?_⟩
  · exact fun pair hpair ↦ List.forall₂_iff_zip.1 hall |>.2 hpair
  · rw [← pure_eq_ok.1 hwords, List.flatMap_def, List.map_snd_zip (Nat.le_of_eq hlength.symm)]

/-- A statement is resolved to as many words as its size says. -/
theorem size_of_wordsOf {layout : Layout} {p : Placed} {words : List Word}
    (h : layout.wordsOf p = .ok words) : p.statement.size = .ok words.length := by
  obtain ⟨resolved, hresolved, hwords⟩ := bind_eq_ok.1 (onLine_eq_ok.1 h)
  rw [Statement.length_instructions hresolved, ← pure_eq_ok.1 hwords, List.length_map]

theorem Emitted.size {layout : Layout} {pairs : List (Placed × List Word)}
    (h : Emitted layout pairs) {pair : Placed × List Word} (hpair : pair ∈ pairs) :
    pair.1.statement.size = .ok pair.2.length :=
  size_of_wordsOf (h.wordsOf pair hpair)

theorem Emitted.mem_placed {layout : Layout} {pairs : List (Placed × List Word)}
    (h : Emitted layout pairs) {pair : Placed × List Word} (hpair : pair ∈ pairs) :
    pair.1 ∈ layout.placed :=
  h.placed ▸ List.mem_map_of_mem hpair

/-- What a layout with a statement in front is resolved to has the words of that statement in
front. -/
theorem Emitted.exists_cons {layout : Layout} {p : Placed} {pairs : List (Placed × List Word)}
    (h : Emitted ⟨p :: layout.placed, layout.labels⟩ pairs) :
    ∃ words rest, pairs = (p, words) :: rest ∧ p.statement.size = .ok words.length ∧
      Emitted layout rest := by
  cases pairs with
  | nil => exact absurd h.placed (by simp)
  | cons pair rest =>
    obtain ⟨hp, hrest⟩ := List.cons.inj h.placed
    refine ⟨pair.2, rest, by rw [← hp], hp ▸ h.size List.mem_cons_self, hrest, fun other hother ↦ ?_⟩
    exact h.wordsOf other (List.mem_cons_of_mem _ hother)

/-! ## Where the words stand -/

/-- The words of the statements that stand above a line. -/
def wordsAbove (line : Nat) (pairs : List (Placed × List Word)) : List Word :=
  (pairs.filter fun pair ↦ pair.1.statement.line < line).flatMap (·.2)

theorem wordsAbove_eq_nil {line : Nat} {pairs : List (Placed × List Word)}
    (h : ∀ pair ∈ pairs, line ≤ pair.1.statement.line) : wordsAbove line pairs = [] := by
  rw [wordsAbove, List.filter_eq_nil_iff.2, List.flatMap_nil]
  intro pair hpair
  simpa using h pair hpair

theorem wordsAbove_cons {line : Nat} {p : Placed} {words : List Word}
    {pairs : List (Placed × List Word)} (h : p.statement.line < line) :
    wordsAbove line ((p, words) :: pairs) = words ++ wordsAbove line pairs := by
  rw [wordsAbove, List.filter_cons_of_pos (by simpa using h), List.flatMap_cons, wordsAbove]

theorem exists_getElem?_cons {α : Type} {x : α} {rest : List α} {P : Nat → α → Prop} :
    (∃ i y, (x :: rest)[i]? = some y ∧ P i y) ↔ P 0 x ∨ ∃ i y, rest[i]? = some y ∧ P (i + 1) y := by
  constructor
  · rintro ⟨i, y, hy, hP⟩
    cases i with
    | zero => exact .inl (Option.some.inj hy ▸ hP)
    | succ i => exact .inr ⟨i, y, hy, hP⟩
  · rintro (hP | ⟨i, y, hy, hP⟩)
    · exact ⟨0, x, rfl, hP⟩
    · exact ⟨i + 1, y, hy, hP⟩

namespace Laid

variable {line : Nat} {address : Word} {labels : Labels} {lines : List (List Char)}
  {layout : Layout}

theorem wordsAbove_first (h : Laid line address labels lines layout)
    {pairs : List (Placed × List Word)} (he : Emitted layout pairs) :
    wordsAbove line pairs = [] :=
  wordsAbove_eq_nil fun _ hpair ↦ h.le_line (he.mem_placed hpair)

/-- Four times a few words more is an address that is that much further. -/
theorem toNat_add_words (address : Word) (n : Nat) (h : address.toNat + 4 * n < 2 ^ 32) :
    (address + BitVec.ofNat 32 (4 * n)).toNat = address.toNat + 4 * n := by
  rw [BitVec.toNat_add, BitVec.toNat_ofNat, Nat.add_mod_mod, Nat.mod_eq_of_lt h]

/-- **The words of a statement stand where its line has them**: behind the words of the statements
above it. -/
theorem wordsAbove_prefix (h : Laid line address labels lines layout)
    {pairs : List (Placed × List Word)} (he : Emitted layout pairs)
    {pair : Placed × List Word} (hpair : pair ∈ pairs) :
    wordsAbove pair.1.statement.line pairs ++ pair.2 <+: pairs.flatMap (·.2) := by
  induction h generalizing pairs with
  | nil => simp [List.map_eq_nil_iff.1 he.placed] at hpair
  | blank _ _ _ ih => exact ih he hpair
  | @statement line address labels labels' text rest layout _ _ _ _ _ hsize hrest ih =>
    have hfirst := wordsAbove_first (.statement ‹_› ‹_› hsize hrest) he
    obtain ⟨words, pairs, rfl, -, hbelow⟩ := he.exists_cons
    rcases List.mem_cons.1 hpair with rfl | hpair
    · exact hfirst ▸ List.prefix_append words _
    · have hline : line < pair.1.statement.line := hrest.le_line (hbelow.mem_placed hpair)
      rw [wordsAbove_cons hline, List.flatMap_cons, List.append_assoc]
      exact (List.prefix_append_right_inj _).2 (ih hbelow hpair)

/-- **The address of a statement counts the words above it.** -/
theorem toNat_address (h : Laid line address labels lines layout)
    {pairs : List (Placed × List Word)} (he : Emitted layout pairs)
    (hfew : address.toNat + 4 * (pairs.flatMap (·.2)).length < 2 ^ 32)
    {pair : Placed × List Word} (hpair : pair ∈ pairs) :
    pair.1.address.toNat =
      address.toNat + 4 * (wordsAbove pair.1.statement.line pairs).length := by
  induction h generalizing pairs with
  | nil => simp [List.map_eq_nil_iff.1 he.placed] at hpair
  | blank _ _ _ ih => exact ih he hfew hpair
  | @statement line address labels labels' text rest layout _ _ size _ _ hsize hrest ih =>
    have hfirst := wordsAbove_first (.statement ‹_› ‹_› hsize hrest) he
    obtain ⟨words, pairs, rfl, hwords, hbelow⟩ := he.exists_cons
    obtain rfl : size = words.length := Except.ok.inj (hsize.symm.trans hwords)
    simp only [List.flatMap_cons, List.length_append] at hfew
    rcases List.mem_cons.1 hpair with rfl | hpair
    · exact (congrArg (fun above ↦ address.toNat + 4 * above.length) hfirst).symm
    · have hline : line < pair.1.statement.line := hrest.le_line (hbelow.mem_placed hpair)
      have hnext := toNat_add_words address words.length (by omega)
      rw [ih hbelow (by omega) hpair, hnext, wordsAbove_cons hline, List.length_append]
      omega

/-- **The labels are those on the lines, and the address of each counts the words above it.** -/
theorem lookup_labels (h : Laid line address labels lines layout)
    {pairs : List (Placed × List Word)} (he : Emitted layout pairs)
    (hfew : address.toNat + 4 * (pairs.flatMap (·.2)).length < 2 ^ 32)
    {name : String} {a : Word} :
    layout.labels.lookup name = some a ↔
      labels.lookup name = some a ∨
        ∃ i text, lines[i]? = some text ∧ name ∈ labelsOn text ∧
          a.toNat = address.toNat + 4 * (wordsAbove (line + i) pairs).length := by
  induction h generalizing pairs with
  | nil => simp
  | @blank line address labels labels' text rest layout names hread hdeclare hrest ih =>
    have hfirst := wordsAbove_first (.blank hread hdeclare hrest) he
    have hon : labelsOn text = names := by rw [labelsOn, hread]
    rw [ih he hfew, lookup_declare hdeclare, exists_getElem?_cons, or_assoc, hon]
    simp only [Nat.add_zero, hfirst, List.length_nil, Nat.mul_zero, BitVec.toNat_inj,
      Nat.add_assoc, Nat.add_comm 1]
  | @statement line address labels labels' text rest layout names written size hread hdeclare hsize
      hrest ih =>
    have hfirst := wordsAbove_first (.statement hread hdeclare hsize hrest) he
    have hon : labelsOn text = names := by rw [labelsOn, hread]
    obtain ⟨words, pairs, rfl, hwords, hbelow⟩ := he.exists_cons
    obtain rfl : size = words.length := Except.ok.inj (hsize.symm.trans hwords)
    simp only [List.flatMap_cons, List.length_append] at hfew
    have hnext := toNat_add_words address words.length (by omega)
    have hbehind : ∀ i, wordsAbove (line + (i + 1))
        ((⟨address, written.statement line⟩, words) :: pairs) =
          words ++ wordsAbove (line + 1 + i) pairs := by
      intro i
      rw [wordsAbove_cons (show line < line + (i + 1) by omega), Nat.add_assoc, Nat.add_comm 1]
    rw [ih hbelow (by omega), lookup_declare hdeclare, exists_getElem?_cons, or_assoc, hon, hnext]
    simp only [Nat.add_zero, hfirst, List.length_nil, Nat.mul_zero, BitVec.toNat_inj, hbehind,
      List.length_append, Nat.mul_add, Nat.add_assoc]

end Laid

/-! ## Where a program is refused -/

theorem line_of_onLine {α : Type} {line : Nat} {result : Except Fault α} {failure : Failure}
    (h : onLine line result = .error failure) : failure.line = line := by
  cases result with
  | ok a => cases h
  | error fault => cases h; rfl

/-- **What cannot be laid out is refused at one of its lines**, and not at one that says nothing. -/
theorem exists_of_ofLines {line : Nat} {address : Word} {labels : Labels}
    {lines : List (List Char)} {failure : Failure}
    (h : Layout.ofLines line address labels lines = .error failure) :
    ∃ i text, lines[i]? = some text ∧ failure.line = line + i ∧
      Line.read text ≠ .ok ⟨[], none⟩ := by
  induction lines generalizing line address labels with
  | nil => cases h
  | cons text rest ih =>
    have hhere : ∀ {names : List String} {instruction : Option Written}, failure.line = line →
        Line.read text = .ok ⟨names, instruction⟩ → (names = [] → instruction ≠ none) →
          ∃ i other, (text :: rest)[i]? = some other ∧ failure.line = line + i ∧
            Line.read other ≠ .ok ⟨[], none⟩ := by
      intro names instruction hline hread hsays
      refine ⟨0, text, rfl, hline, fun hnothing ↦ ?_⟩
      obtain ⟨hnames, hinstruction⟩ := Line.mk.inj (Except.ok.inj (hread.symm.trans hnothing))
      exact hsays hnames hinstruction
    have hbelow : ∀ {address labels},
        Layout.ofLines (line + 1) address labels rest = .error failure →
          ∃ i other, (text :: rest)[i]? = some other ∧ failure.line = line + i ∧
            Line.read other ≠ .ok ⟨[], none⟩ := by
      intro address labels h
      obtain ⟨i, other, hother, hline, hread⟩ := ih h
      exact ⟨i + 1, other, hother, by omega, hread⟩
    rw [Layout.ofLines] at h
    rcases bind_eq_error.1 h with h | ⟨⟨names, instruction⟩, hread, h⟩
    · refine ⟨0, text, rfl, line_of_onLine h, fun hnothing ↦ ?_⟩
      rw [hnothing] at h
      cases h
    rw [onLine_eq_ok] at hread
    rcases bind_eq_error.1 h with h | ⟨labels', -, h⟩
    · refine hhere (line_of_onLine h) hread ?_
      rintro rfl
      cases h
    cases instruction with
    | none => exact hbelow h
    | some written =>
      rcases bind_eq_error.1 h with h | ⟨size, -, h⟩
      · exact hhere (line_of_onLine h) hread fun _ ↦ Option.some_ne_none written
      rcases bind_eq_error.1 h with h | ⟨layout, -, h⟩
      · exact hbelow h
      · cases h

/-- A statement of a layout stands on one of the lines. -/
theorem Laid.exists_of_mem {line : Nat} {address : Word} {labels : Labels}
    {lines : List (List Char)} {layout : Layout} (h : Laid line address labels lines layout)
    {p : Placed} (hp : p ∈ layout.placed) :
    ∃ i text, lines[i]? = some text ∧ p.statement.line = line + i ∧
      statementOn text (line + i) = some p.statement := by
  have hmem : p.statement ∈ statementsFrom line lines := by
    rw [← h.map_statement]
    exact List.mem_map_of_mem hp
  obtain ⟨⟨text, number⟩, htext, hstatement⟩ := List.mem_filterMap.1 hmem
  obtain ⟨hle, hget⟩ := List.mk_mem_zipIdx_iff_le_and_getElem?_sub.1 htext
  obtain ⟨i, rfl⟩ := Nat.exists_eq_add_of_le hle
  rw [Nat.add_sub_cancel_left] at hget
  refine ⟨i, text, hget, ?_, hstatement⟩
  dsimp only at hstatement
  rw [statementOn] at hstatement
  split at hstatement
  · rw [← Option.some.inj hstatement]
    rfl
  · cases hstatement

/-- What cannot be put out is refused at one of its statements. -/
theorem exists_of_words_eq_error {layout : Layout} {failure : Failure}
    (h : layout.words = .error failure) :
    ∃ p ∈ layout.placed, layout.wordsOf p = .error failure := by
  rcases bind_eq_error.1 h with h | ⟨chunks, -, h⟩
  · exact exists_of_mapM_eq_error h
  · cases h

/-- **A program is refused at one of its lines**, and not at one that says nothing. -/
theorem exists_of_assemble {source : String} {failure : Failure}
    (h : assemble source = .error failure) :
    ∃ i text, (Text.lines source.toList)[i]? = some text ∧ failure.line = i + 1 ∧
      Line.read text ≠ .ok ⟨[], none⟩ := by
  rcases bind_eq_error.1 h with h | ⟨layout, hlayout, h⟩
  · obtain ⟨i, text, htext, hline, hread⟩ := exists_of_ofLines h
    exact ⟨i, text, htext, by omega, hread⟩
  · obtain ⟨p, hp, hfailure⟩ := exists_of_words_eq_error h
    obtain ⟨i, text, htext, hline, hstatement⟩ := (laid_of_ofLines hlayout).exists_of_mem hp
    refine ⟨i, text, htext, ?_, fun hnothing ↦ ?_⟩
    · rw [line_of_onLine hfailure, hline, Nat.add_comm]
    · rw [statementOn, hnothing] at hstatement
      cases hstatement

theorem line_of_assemble {source : String} {failure : Failure}
    (h : assemble source = .error failure) :
    0 < failure.line ∧ failure.line ≤ (Text.lines source.toList).length := by
  obtain ⟨i, text, htext, hline, -⟩ := exists_of_assemble h
  have hlt := (List.getElem?_eq_some_iff.1 htext).1
  omega

/-! ## Whole source texts -/

/-- **A program that was laid out is not refused for a name.** -/
theorem Laid.words_ne_unknownMnemonic {line : Nat} {address : Word} {labels : Labels}
    {lines : List (List Char)} {layout : Layout} (h : Laid line address labels lines layout)
    (k : Nat) (name : String) : layout.words ≠ .error ⟨k, .unknownMnemonic name⟩ := by
  intro hwords
  rw [Layout.words] at hwords
  cases hm : layout.placed.mapM layout.wordsOf with
  | ok chunks =>
    rw [hm] at hwords
    exact nomatch hwords
  | error failure =>
    rw [hm] at hwords
    obtain rfl : failure = ⟨k, .unknownMnemonic name⟩ := Except.error.inj hwords
    obtain ⟨p, hp, hfault⟩ := exists_of_mapM_eq_error hm
    obtain ⟨n, hn⟩ := h.exists_size hp
    have hnamed := Named.instructions hn layout.labels p.address name
    rw [Layout.wordsOf, onLine] at hfault
    cases hresolved : p.statement.instructions layout.labels p.address with
    | ok resolved =>
      rw [hresolved] at hfault
      exact nomatch hfault
    | error fault =>
      rw [hresolved] at hfault hnamed
      exact hnamed (congrArg _ (congrArg Failure.fault (Except.error.inj hfault)))

/-- What there is to an accepted program: its layout, and the words of each statement of it. -/
structure Accepted (source : String) (words : List Word) (layout : Layout)
    (pairs : List (Placed × List Word)) : Prop where
  ofSource : Layout.ofSource source = .ok layout
  laid : Laid 1 0 [] (Text.lines source.toList) layout
  emitted : Emitted layout pairs
  words_eq : words = pairs.flatMap (·.2)

theorem exists_accepted {source : String} {words : List Word} (h : assemble source = .ok words) :
    ∃ layout pairs, Accepted source words layout pairs := by
  obtain ⟨layout, hlayout, hwords⟩ := bind_eq_ok.1 h
  obtain ⟨pairs, he, rfl⟩ := exists_emitted hwords
  exact ⟨layout, pairs, hlayout, laid_of_ofLines hlayout, he, rfl⟩

namespace Accepted

variable {source : String} {words : List Word} {layout : Layout}
  {pairs : List (Placed × List Word)}

theorem reach (h : Accepted source words layout pairs) (hfew : words.length < 2 ^ 30) :
    (0 : Word).toNat + 4 * (pairs.flatMap (·.2)).length < 2 ^ 32 := by
  rw [← h.words_eq, BitVec.ofNat_eq_ofNat, BitVec.toNat_zero]
  omega

theorem toNat_address (h : Accepted source words layout pairs) (hfew : words.length < 2 ^ 30)
    {pair : Placed × List Word} (hpair : pair ∈ pairs) :
    pair.1.address.toNat = 4 * (wordsAbove pair.1.statement.line pairs).length := by
  rw [h.laid.toNat_address h.emitted (h.reach hfew) hpair, BitVec.ofNat_eq_ofNat, BitVec.toNat_zero,
    Nat.zero_add]

/-- The words of a statement start at a quarter of its address. -/
theorem prefix_drop (h : Accepted source words layout pairs) (hfew : words.length < 2 ^ 30)
    {pair : Placed × List Word} (hpair : pair ∈ pairs) :
    pair.2 <+: words.drop (pair.1.address.toNat / 4) := by
  obtain ⟨behind, hbehind⟩ := h.laid.wordsAbove_prefix h.emitted hpair
  rw [h.toNat_address hfew hpair, Nat.mul_div_cancel_left _ (by decide), h.words_eq, ← hbehind,
    List.append_assoc, List.drop_left]
  exact List.prefix_append _ _

/-- All the words are as many as were counted. -/
theorem exists_sizes (h : Accepted source words layout pairs) :
    ∃ sizes, layout.placed.mapM (·.statement.size) = .ok sizes ∧ words.length = sizes.sum := by
  refine ⟨pairs.map (·.2.length), ?_, by rw [h.words_eq, List.length_flatMap]⟩
  rw [mapM_eq_ok, ← h.emitted.placed, List.forall₂_map_left_iff, List.forall₂_map_right_iff,
    List.forall₂_same]
  exact fun pair hpair ↦ h.emitted.size hpair

/-- The labels are those of the source text, at the addresses of the words above them. -/
theorem lookup_labels (h : Accepted source words layout pairs) (hfew : words.length < 2 ^ 30)
    (name : String) (a : Word) :
    layout.labels.lookup name = some a ↔
      ∃ i text, (Text.lines source.toList)[i]? = some text ∧ name ∈ labelsOn text ∧
        a.toNat = 4 * (wordsAbove (i + 1) pairs).length := by
  rw [h.laid.lookup_labels h.emitted (h.reach hfew), BitVec.ofNat_eq_ofNat, BitVec.toNat_zero,
    List.lookup_nil]
  simp only [reduceCtorEq, false_or, Nat.zero_add, Nat.add_comm 1]

end Accepted

/-- **The words of an accepted program stand where it was laid out.**  The statements of the layout
are those of the source text in their order.  The words of each of them are as many as were counted
for it before any label had an address, and as many as it would have under any other labels and
anywhere else; they stand at a quarter of its address, and all the words are as many as were
counted altogether.  The labels are those that are declared in the source text, and the address of
each is four times the number of words on the lines above it.  A source text that could be laid out
is not refused for the name of an instruction any more. -/
theorem words_at_layout (source : String) :
    (∀ words, assemble source = .ok words → words.length < 2 ^ 30 →
      ∃ layout pairs, Layout.ofSource source = .ok layout ∧
        layout.placed.map (·.statement) = statementsOf source ∧
        Emitted layout pairs ∧ words = pairs.flatMap (·.2) ∧
        (∀ pair ∈ pairs,
          pair.1.statement.size = .ok pair.2.length ∧
          (∀ labels address resolved, pair.1.statement.instructions labels address = .ok resolved →
            resolved.length = pair.2.length) ∧
          pair.1.address.toNat = 4 * (wordsAbove pair.1.statement.line pairs).length ∧
          pair.2 <+: words.drop (pair.1.address.toNat / 4)) ∧
        (∃ sizes, layout.placed.mapM (·.statement.size) = .ok sizes ∧ words.length = sizes.sum) ∧
        ∀ name a, layout.labels.lookup name = some a ↔
          ∃ i text, (Text.lines source.toList)[i]? = some text ∧ name ∈ labelsOn text ∧
            a.toNat = 4 * (wordsAbove (i + 1) pairs).length) ∧
    ∀ layout, Layout.ofSource source = .ok layout →
      ∀ line name, layout.words ≠ .error ⟨line, .unknownMnemonic name⟩ := by
  refine ⟨fun words h hfew ↦ ?_, fun layout h ↦ (laid_of_ofLines h).words_ne_unknownMnemonic⟩
  obtain ⟨layout, pairs, h⟩ := exists_accepted h
  refine ⟨layout, pairs, h.ofSource, h.laid.map_statement, h.emitted, h.words_eq, fun pair hpair ↦ ?_,
    h.exists_sizes, h.lookup_labels hfew⟩
  have hsize := h.emitted.size hpair
  refine ⟨hsize, fun labels address resolved hresolved ↦ ?_, h.toNat_address hfew hpair,
    h.prefix_drop hfew hpair⟩
  exact Except.ok.inj ((Statement.length_instructions hresolved).symm.trans hsize)

theorem words_at_layout_of_forward_branch :
    assemble "a: beqz a0, b\n li a0, 4096\nb: ret" = .ok [0x00050463, 0x00001537, 0x00008067] ∧
      ∃ layout pairs, Layout.ofSource "a: beqz a0, b\n li a0, 4096\nb: ret" = .ok layout ∧
        Emitted layout pairs ∧
        pairs.flatMap (·.2) = [0x00050463, 0x00001537, 0x00008067] ∧
        ∀ pair ∈ pairs, pair.1.address.toNat = 4 * (wordsAbove pair.1.statement.line pairs).length := by
  have hwords : assemble "a: beqz a0, b\n li a0, 4096\nb: ret" =
      .ok [0x00050463, 0x00001537, 0x00008067] := by decide +kernel
  obtain ⟨layout, pairs, hlayout, -, he, heq, hpairs, -, -⟩ :=
    (words_at_layout _).1 _ hwords (by decide)
  exact ⟨hwords, layout, pairs, hlayout, he, heq.symm, fun pair hpair ↦ (hpairs pair hpair).2.2.1⟩

end Assembly
end FirmwareLane
