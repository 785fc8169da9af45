import FirmwareLane.Proofs.Assembly.Literals
import FirmwareLane.Proofs.Assembly.Targets
import FirmwareLane.Proofs.Paths
import FirmwareLane.Proofs.Text.Blank

/-!
# Statements written as lines

A statement can be put into a source text by writing it out: its labels, each with a colon, its
name, and its operands with commas between them.  This file says which statements are read back
from the line that they are written as.  Reading a line is lenient, so this needs care: a slash at
the end of one piece and one at the start of the next would begin a comment, and the name of an
instruction with a colon behind it would be a label.

## What is here

* `Unmarked` are the texts that no comment begins in.  It is closed under pieces and, unless a slash
  meets another, under joining, which is all that is used of comments.
* `Written.IsSpellable` are the statements that can be written out, and `read_spell` reads one back,
  with its labels.
* `isOperand_of_read` and `colon_of_read` say that what stands on a line is of this kind, up to the
  name of the instruction.
* Registers and integers are read back from their plainest spellings.
-/

set_option autoImplicit false
namespace FirmwareLane

namespace Assembly

open Outcome

/-! ## Texts without comments -/

/-- No comment begins in the text. -/
structure Unmarked (s : List Char) : Prop where
  mark : ∀ c ∈ s, c ≠ '#' ∧ c ≠ ';'
  slashes : s.IsChain fun a b ↦ ¬ (a = '/' ∧ b = '/')

theorem Unmarked.of_isInfix {s t : List Char} (h : Unmarked t) (hs : s <:+: t) : Unmarked s :=
  ⟨fun c hc ↦ h.mark c (hs.mem hc), h.slashes.infix hs⟩

/-- Texts without comments with a character between them that is no part of a mark. -/
theorem Unmarked.append_cons {s t : List Char} {c : Char} (hs : Unmarked s) (ht : Unmarked t)
    (hmark : c ≠ '#' ∧ c ≠ ';') (hslash : c ≠ '/') : Unmarked (s ++ c :: t) := by
  refine ⟨fun d hd ↦ ?_, List.isChain_append.2 ⟨hs.slashes, ?_, ?_⟩⟩
  · rcases List.mem_append.1 hd with hd | hd
    · exact hs.mark d hd
    · rcases List.mem_cons.1 hd with rfl | hd
      · exact hmark
      · exact ht.mark d hd
  · exact List.isChain_cons.2 ⟨fun _ _ hboth ↦ hslash hboth.1, ht.slashes⟩
  · rintro a - b hb ⟨-, rfl⟩
    exact hslash (Option.some.inj hb)

theorem unmarked_of_forall {s : List Char} (h : ∀ c ∈ s, c ≠ '#' ∧ c ≠ ';' ∧ c ≠ '/') :
    Unmarked s := by
  refine ⟨fun c hc ↦ ⟨(h c hc).1, (h c hc).2.1⟩, ?_⟩
  induction s with
  | nil => exact List.isChain_nil
  | cons c rest ih =>
    refine List.isChain_cons.2 ⟨fun _ _ hboth ↦ (h c List.mem_cons_self).2.2 hboth.1, ?_⟩
    exact ih fun d hd ↦ h d (List.mem_cons_of_mem _ hd)

theorem uncommented_isPrefix (s : List Char) : uncommented s <+: s := by
  fun_induction uncommented s with
  | case1 => exact List.nil_prefix
  | case2 => exact List.nil_prefix
  | case3 => exact List.nil_prefix
  | case4 c rest _ _ ih => exact List.cons_prefix_cons.2 ⟨rfl, ih⟩

theorem unmarked_uncommented (s : List Char) : Unmarked (uncommented s) := by
  fun_induction uncommented s with
  | case1 => exact ⟨nofun, List.isChain_nil⟩
  | case2 => exact ⟨nofun, List.isChain_nil⟩
  | case3 => exact ⟨nofun, List.isChain_nil⟩
  | case4 c rest hslashes hc ih =>
    rw [not_or] at hc
    refine ⟨fun d hd ↦ ?_, List.isChain_cons.2 ⟨fun d hd hboth ↦ ?_, ih.slashes⟩⟩
    · rcases List.mem_cons.1 hd with rfl | hd
      · exact hc
      · exact ih.mark d hd
    · -- what follows a slash here is not a slash, or both would have been cut off
      obtain ⟨rfl, rfl⟩ := hboth
      obtain ⟨behind, hbehind⟩ := uncommented_isPrefix rest
      obtain ⟨tail, htail⟩ := List.head?_eq_some_iff.1 hd
      exact hslashes _ rfl (by rw [← hbehind, htail]; rfl)

theorem uncommented_eq_self {s : List Char} (h : Unmarked s) : uncommented s = s := by
  fun_induction uncommented s with
  | case1 => rfl
  | case2 rest => exact absurd ⟨rfl, rfl⟩ (List.isChain_cons_cons.1 h.slashes).1
  | case3 c rest _ hc =>
    obtain ⟨hhash, hsemicolon⟩ := h.mark c List.mem_cons_self
    exact absurd hc (not_or.2 ⟨hhash, hsemicolon⟩)
  | case4 c rest _ _ ih => rw [ih (h.of_isInfix (List.suffix_cons c rest).isInfix)]

/-! ## Texts that are left alone -/

/-- A text of which reading a line that ends in it takes nothing away. -/
structure Legible (s : List Char) : Prop where
  ne_nil : s ≠ []
  last : ∀ c ∈ s.getLast?, Text.isBlank c = false
  newline : '\n' ∉ s
  unmarked : Unmarked s

theorem Legible.append_cons {s t : List Char} {c : Char} (ht : Legible t) (hs : Unmarked s)
    (hnewline : '\n' ∉ s) (hc : c ≠ '\n' ∧ c ≠ '#' ∧ c ≠ ';' ∧ c ≠ '/') : Legible (s ++ c :: t) where
  ne_nil := by simp
  last := by
    rw [List.getLast?_append_of_ne_nil _ (List.cons_ne_nil c t), List.getLast?_cons_of_ne_nil ht.ne_nil]
    exact ht.last
  newline h := by
    rcases List.mem_append.1 h with h | h
    · exact hnewline h
    · exact (List.mem_cons.1 h).elim (fun h ↦ hc.1 h.symm) ht.newline
  unmarked := hs.append_cons ht.unmarked ⟨hc.2.1, hc.2.2.1⟩ hc.2.2.2

theorem Legible.cons {t : List Char} {c : Char} (ht : Legible t)
    (hc : c ≠ '\n' ∧ c ≠ '#' ∧ c ≠ ';' ∧ c ≠ '/') : Legible (c :: t) :=
  ht.append_cons (s := []) (unmarked_of_forall nofun) List.not_mem_nil hc

theorem Legible.trim_eq {s : List Char} (h : Legible s)
    (hhead : ∀ c ∈ s.head?, Text.isBlank c = false) : Text.trim s = s :=
  Text.trim_eq_self_iff.2 ⟨hhead, h.last⟩

/-- A text that is an operand where it stands between commas. -/
structure IsOperand (s : List Char) : Prop extends Legible s where
  head : ∀ c ∈ s.head?, Text.isBlank c = false
  comma : ',' ∉ s

/-- Identifiers and numerals can be operands. -/
theorem isOperand_of_forall {s : List Char} (hne : s ≠ [])
    (h : ∀ c ∈ s, isIdentifierPart c = true ∨ c = '-') : IsOperand s := by
  have hvisible : ∀ c ∈ s, Text.isBlank c = false := fun c hc ↦
    (h c hc).elim isBlank_of_isIdentifierPart fun hminus ↦ by rw [hminus]; decide
  have hno : ∀ mark, isIdentifierPart mark = false → mark ≠ '-' → mark ∉ s :=
    fun mark hpart hminus hmem ↦
      (h mark hmem).elim (fun hid ↦ by cases hpart.symm.trans hid) hminus
  exact {
    ne_nil := hne
    last := fun c hc ↦ hvisible c (List.mem_of_getLast? hc)
    newline := hno _ (by decide) (by decide)
    unmarked := unmarked_of_forall fun c hc ↦
      ⟨by rintro rfl; exact hno _ (by decide) (by decide) hc,
        by rintro rfl; exact hno _ (by decide) (by decide) hc,
        by rintro rfl; exact hno _ (by decide) (by decide) hc⟩
    head := fun c hc ↦ hvisible c (List.mem_of_head? hc)
    comma := hno _ (by decide) (by decide) }

/-! ## Operands with commas between them -/

/-- Operands with commas between them. -/
def joined : List (List Char) → List Char
  | [] => []
  | [operand] => operand
  | operand :: rest => operand ++ ',' :: ' ' :: joined rest

theorem joined_cons {operand : List Char} {rest : List (List Char)} (h : rest ≠ []) :
    joined (operand :: rest) = operand ++ ',' :: ' ' :: joined rest := by
  cases rest with
  | nil => exact absurd rfl h
  | cons next more => rw [joined]; simp

theorem operand_isPrefix_joined (operand : List Char) (rest : List (List Char)) :
    operand <+: joined (operand :: rest) := by
  cases rest with
  | nil => exact List.prefix_rfl
  | cons next more => exact List.prefix_append operand _

theorem legible_joined {operands : List (List Char)} (hne : operands ≠ [])
    (h : ∀ o ∈ operands, IsOperand o) : Legible (joined operands) := by
  induction operands with
  | nil => exact absurd rfl hne
  | cons operand rest ih =>
    have hoperand := h operand List.mem_cons_self
    rcases eq_or_ne rest [] with rfl | hrest
    · exact hoperand.toLegible
    · rw [joined_cons hrest]
      have hbehind := ih hrest fun o ho ↦ h o (List.mem_cons_of_mem _ ho)
      exact (hbehind.cons (by decide)).append_cons hoperand.unmarked hoperand.newline (by decide)

/-- A blank in front of pieces is a blank in front of the first one. -/
theorem trim_splitOn_blank (s : List Char) :
    (Text.splitOn ',' (' ' :: s)).map Text.trim = (Text.splitOn ',' s).map Text.trim := by
  rw [Text.splitOn, if_neg (by decide)]
  cases hs : Text.splitOn ',' s with
  | nil => exact absurd hs (Text.splitOn_ne_nil _ _)
  | cons piece more =>
    rw [List.map_cons, Text.trim_cons_blank (by decide)]
    rfl

/-- **Operands are found again between their commas.** -/
theorem trim_splitOn_joined {operands : List (List Char)} (hne : operands ≠ [])
    (h : ∀ o ∈ operands, IsOperand o) :
    (Text.splitOn ',' (joined operands)).map Text.trim = operands := by
  induction operands with
  | nil => exact absurd rfl hne
  | cons operand rest ih =>
    have hoperand := h operand List.mem_cons_self
    have htrim := hoperand.trim_eq hoperand.head
    rcases eq_or_ne rest [] with rfl | hrest
    · rw [joined, Path.splitOn_of_not_mem hoperand.comma, List.map_singleton, htrim]
    · rw [joined_cons hrest, Path.splitOn_append_cons, Path.splitOn_of_not_mem hoperand.comma,
        List.map_append, List.map_singleton, htrim, trim_splitOn_blank,
        ih hrest fun o ho ↦ h o (List.mem_cons_of_mem _ ho)]
      rfl

theorem operandTexts_joined {operands : List (List Char)} (h : ∀ o ∈ operands, IsOperand o) :
    operandTexts (joined operands) = operands := by
  rcases eq_or_ne operands [] with rfl | hne
  · rfl
  · rw [operandTexts, if_neg (mt List.isEmpty_iff.1 (legible_joined hne h).ne_nil),
      trim_splitOn_joined hne h]

/-! ## Statements written out -/

/-- The text of a statement. -/
def Written.spell (written : Written) : List Char :=
  match written.operands with
  | [] => written.name.toList
  | operands => written.name.toList ++ ' ' :: joined (operands.map String.toList)

/-- The text of a line that declares labels and has a statement. -/
def Line.spell (written : Written) : List String → List Char
  | [] => written.spell
  | name :: rest => name.toList ++ ':' :: ' ' :: spell written rest

/-- A name in lower case that is not that of a directive. -/
def IsName (name : List Char) : Prop :=
  name ≠ [] ∧ name.head? ≠ some '.' ∧ ∀ c ∈ name, isIdentifierPart c = true ∧ c.toLower = c

-- Named, as the search may take a decision over all characters instead.
instance (name : List Char) : Decidable (IsName name) :=
  have := List.decidableBAll (fun c ↦ isIdentifierPart c = true ∧ c.toLower = c) name
  inferInstanceAs (Decidable (_ ∧ _ ∧ _))

/-- A statement that can be written out.  The first operand must not begin with a colon, or the
name in front of it would be a label. -/
structure Written.IsSpellable (written : Written) : Prop where
  name : IsName written.name.toList
  operands : ∀ o ∈ written.operands, IsOperand o.toList
  colon : ∀ o ∈ written.operands.head?, o.toList.head? ≠ some ':'

/-- What has no mark in it and stands at the front stands in front of the mark. -/
theorem isPrefix_of_append_cons {s t before after : List Char} {mark : Char}
    (h : s ++ t = before ++ mark :: after) (hmark : mark ∉ s) : s <+: before := by
  rcases List.append_eq_append_iff.1 h with ⟨more, rfl, -⟩ | ⟨more, rfl, hmore⟩
  · exact List.prefix_append s more
  · cases more with
    | nil => simp
    | cons c rest =>
      obtain ⟨rfl, -⟩ := List.cons.inj hmore
      exact absurd (by simp) hmark

namespace Written.IsSpellable

variable {written : Written}

theorem isOperand_of_mem (h : written.IsSpellable) {o : List Char}
    (ho : o ∈ written.operands.map String.toList) : IsOperand o := by
  obtain ⟨operand, hoperand, rfl⟩ := List.mem_map.1 ho
  exact h.operands operand hoperand

/-- Behind the name stand the operands. -/
theorem exists_spell (h : written.IsSpellable) :
    ∃ rest, written.spell = written.name.toList ++ rest ∧
      (∀ c ∈ rest.head?, Text.isBlank c = true) ∧
      Text.trim rest = joined (written.operands.map String.toList) := by
  rw [spell]
  split
  · next hnil => exact ⟨[], (List.append_nil _).symm, nofun, by rw [hnil]; rfl⟩
  · next hne =>
    have hne : written.operands.map String.toList ≠ [] := by simpa using hne
    refine ⟨_, rfl, fun c hc ↦ by rw [← Option.some.inj hc]; decide, ?_⟩
    have hlegible := legible_joined hne fun _ ↦ h.isOperand_of_mem
    rw [Text.trim_cons_blank (by decide), hlegible.trim_eq]
    obtain ⟨operand, rest, heq⟩ := List.exists_cons_of_ne_nil hne
    have hoperand := h.isOperand_of_mem (heq ▸ List.mem_cons_self)
    obtain ⟨behind, hbehind⟩ := operand_isPrefix_joined operand rest
    rw [heq, ← hbehind, List.head?_append_of_ne_nil _ hoperand.ne_nil]
    exact hoperand.head

theorem isIdentifierPart_of_mem_name (h : written.IsSpellable) {c : Char}
    (hc : c ∈ written.name.toList) : isIdentifierPart c = true :=
  (h.name.2.2 c hc).1

theorem isBlank_of_mem_name (h : written.IsSpellable) {c : Char}
    (hc : c ∈ written.name.toList) : Text.isBlank c = false :=
  isBlank_of_isIdentifierPart (h.isIdentifierPart_of_mem_name hc)

theorem legible_name (h : written.IsSpellable) : Legible written.name.toList :=
  (isOperand_of_forall h.name.1 fun _ hc ↦ .inl (h.isIdentifierPart_of_mem_name hc)).toLegible

theorem legible_spell (h : written.IsSpellable) : Legible written.spell := by
  rw [spell]
  split
  · exact h.legible_name
  · next hne =>
    have hne : written.operands.map String.toList ≠ [] := by simpa using hne
    exact (legible_joined hne fun _ ↦ h.isOperand_of_mem).append_cons h.legible_name.unmarked
      h.legible_name.newline (by decide)

theorem head_spell (h : written.IsSpellable) :
    written.spell.head? = written.name.toList.head? := by
  obtain ⟨rest, hspell, -⟩ := h.exists_spell
  rw [hspell, List.head?_append_of_ne_nil _ h.name.1]

/-- **A statement is read back from its text.** -/
theorem read?_spell (h : written.IsSpellable) :
    Written.read? written.spell = .ok (some written) := by
  obtain ⟨rest, hspell, hblank, htrim⟩ := h.exists_spell
  have hvisible : ∀ c ∈ written.name.toList, (!Text.isBlank c) = true := fun c hc ↦ by
    rw [h.isBlank_of_mem_name hc]; rfl
  have htake : rest.takeWhile (fun c ↦ !Text.isBlank c) = [] := by
    cases rest with
    | nil => rfl
    | cons c more => exact List.takeWhile_cons_of_neg (by simp [hblank c rfl])
  have hdrop : rest.dropWhile (fun c ↦ !Text.isBlank c) = rest := by
    cases rest with
    | nil => rfl
    | cons c more => exact List.dropWhile_cons_of_neg (by simp [hblank c rfl])
  have hlower : written.name.toList.map Char.toLower = written.name.toList :=
    (List.map_congr_left fun c hc ↦ (h.name.2.2 c hc).2).trans (List.map_id _)
  have hoperands : ∀ o ∈ written.operands.map String.toList, IsOperand o :=
    fun _ ↦ h.isOperand_of_mem
  have hfull : (written.operands.map String.toList).any List.isEmpty = false := by
    rw [List.any_eq_false]
    exact fun o ho hempty ↦ (hoperands o ho).ne_nil (List.isEmpty_iff.1 hempty)
  have hstrings : (written.operands.map String.toList).map String.ofList = written.operands := by
    rw [List.map_map]
    exact (List.map_congr_left fun o _ ↦ String.ofList_toList).trans (List.map_id _)
  rw [Written.read?, if_neg (mt List.isEmpty_iff.1 h.legible_spell.ne_nil), hspell,
    List.takeWhile_append_of_pos hvisible, List.dropWhile_append_of_pos hvisible, htake, hdrop,
    List.append_nil, hlower, String.ofList_toList, htrim]
  simp only [if_neg h.name.2.1, operandTexts_joined hoperands, hfull, hstrings, Bool.false_eq_true,
    if_false]

/-- What stands in front of a colon in the text of a statement has the name, the blank behind it and
the start of the first operand, and so is no identifier. -/
theorem isIdentifier_of_cutAt?_spell (h : written.IsSpellable) {before after : List Char}
    (hcut : Text.cutAt? ':' written.spell = some (before, after)) :
    isIdentifier (Text.trim before) = false := by
  have hcolon : ':' ∉ written.name.toList := fun hmem ↦
    absurd (h.isIdentifierPart_of_mem_name hmem) (by decide)
  obtain ⟨htext, -⟩ := Text.cutAt?_eq_some.1 hcut
  rw [spell] at htext
  split at htext
  · exact absurd (htext ▸ by simp) hcolon
  · next hne =>
    obtain ⟨operand, others, heq⟩ := List.exists_cons_of_ne_nil hne
    have hoperand := h.operands operand (heq ▸ List.mem_cons_self)
    obtain ⟨d, more, hd⟩ := List.exists_cons_of_ne_nil hoperand.ne_nil
    have hblank : Text.isBlank d = false := hoperand.head d (by rw [hd]; rfl)
    have hmark : d ≠ ':' := fun hd' ↦ h.colon operand (by rw [heq]; rfl) (by rw [hd, hd']; rfl)
    obtain ⟨behind, hbehind⟩ := operand_isPrefix_joined operand.toList (others.map String.toList)
    have hfront : written.name.toList ++ [' ', d] <+: before := by
      have happend : (written.name.toList ++ [' ', d]) ++ (more ++ behind) =
          before ++ ':' :: after := by
        rw [← htext, heq, List.map_cons, ← hbehind, hd]
        simp
      exact isPrefix_of_append_cons happend (by simpa [hcolon] using hmark.symm)
    obtain ⟨tail, rfl⟩ := hfront
    rw [Text.trim_append (by simp)]
    · exact Bool.eq_false_iff.2 fun hid ↦
        absurd (isIdentifierPart_of_mem hid (c := ' ') (by simp)) (by decide)
    · rw [List.head?_append_of_ne_nil _ h.name.1]
      exact fun c hc ↦ h.isBlank_of_mem_name (List.mem_of_head? hc)
    · simpa using hblank

theorem peelLabels_spell (h : written.IsSpellable) :
    peelLabels written.spell = ([], written.spell) := by
  unfold peelLabels
  split
  · rfl
  · next before after hcut => exact if_neg (by simp [h.isIdentifier_of_cutAt?_spell hcut])

end Written.IsSpellable

section Lines

variable {written : Written} {names : List String}

theorem ne_nil_of_isIdentifier {name : List Char} (h : isIdentifier name = true) : name ≠ [] :=
  fun hnil ↦ by rw [hnil] at h; cases h

theorem legible_of_isIdentifier {name : List Char} (h : isIdentifier name = true) : Legible name :=
  (isOperand_of_forall (ne_nil_of_isIdentifier h) fun _ hc ↦
    .inl (isIdentifierPart_of_mem h hc)).toLegible

theorem legible_spell (h : written.IsSpellable)
    (hnames : ∀ name ∈ names, isIdentifier name.toList = true) :
    Legible (Line.spell written names) := by
  induction names with
  | nil => exact h.legible_spell
  | cons name rest ih =>
    have hname := legible_of_isIdentifier (hnames name List.mem_cons_self)
    have hrest := ih fun n hn ↦ hnames n (List.mem_cons_of_mem _ hn)
    exact (hrest.cons (by decide)).append_cons hname.unmarked hname.newline (by decide)

theorem trim_spell (h : written.IsSpellable)
    (hnames : ∀ name ∈ names, isIdentifier name.toList = true) :
    Text.trim (Line.spell written names) = Line.spell written names := by
  refine (legible_spell h hnames).trim_eq ?_
  cases names with
  | nil =>
    rw [Line.spell, h.head_spell]
    exact fun c hc ↦ h.isBlank_of_mem_name (List.mem_of_head? hc)
  | cons name rest =>
    have hname := hnames name List.mem_cons_self
    rw [Line.spell, List.head?_append_of_ne_nil _ (ne_nil_of_isIdentifier hname)]
    exact fun c hc ↦ isBlank_of_isIdentifierPart (isIdentifierPart_of_mem hname (List.mem_of_head? hc))

theorem peelLabels_spell (h : written.IsSpellable)
    (hnames : ∀ name ∈ names, isIdentifier name.toList = true) :
    peelLabels (Line.spell written names) = (names, written.spell) := by
  induction names with
  | nil => exact h.peelLabels_spell
  | cons name rest ih =>
    have hname := hnames name List.mem_cons_self
    have hrest : ∀ n ∈ rest, isIdentifier n.toList = true :=
      fun n hn ↦ hnames n (List.mem_cons_of_mem _ hn)
    have htrim : Text.trim name.toList = name.toList := Text.trim_eq_self fun c hc ↦
      isBlank_of_isIdentifierPart (isIdentifierPart_of_mem hname hc)
    have hcut : Text.cutAt? ':' (Line.spell written (name :: rest)) =
        some (name.toList, ' ' :: Line.spell written rest) :=
      Text.cutAt?_eq_some.2 ⟨rfl, fun hmem ↦
        absurd (isIdentifierPart_of_mem hname hmem) (by decide)⟩
    unfold peelLabels
    split
    · next hnone => cases hnone.symm.trans hcut
    · next before after hsome =>
      obtain ⟨rfl, rfl⟩ := Prod.mk.inj (Option.some.inj (hsome.symm.trans hcut))
      simp only [htrim, hname, if_true, Text.trim_cons_blank (show Text.isBlank ' ' = true by decide),
        trim_spell h hrest, ih hrest, String.ofList_toList]

/-- **A statement with its labels is read back from its line.** -/
theorem read_spell (h : written.IsSpellable)
    (hnames : ∀ name ∈ names, isIdentifier name.toList = true) :
    Line.read (Line.spell written names) = .ok ⟨names, some written⟩ := by
  rw [Line.read, uncommented_eq_self (legible_spell h hnames).unmarked, trim_spell h hnames,
    peelLabels_spell h hnames]
  simp only [h.read?_spell]
  rfl

end Lines

/-- Nothing stands on an empty line. -/
theorem read_nil : Line.read [] = .ok ⟨[], none⟩ := by decide +kernel

/-! ## What stands on a line can be written out -/

theorem peelLabels_isInfix (s : List Char) : (peelLabels s).2 <:+: s := by
  fun_induction peelLabels s with
  | case1 s hcut => exact List.infix_rfl
  | case2 s before after hcut first hfirst labels rest heq ih =>
    rw [heq] at ih
    obtain ⟨htext, -⟩ := Text.cutAt?_eq_some.1 hcut
    have hafter : after <:+: s := ⟨before ++ [':'], [], by simp [htext]⟩
    exact (ih.trans (Text.trim_isInfix after)).trans hafter
  | case3 s before after hcut first hfirst => exact List.infix_rfl

theorem isOperand_of_mem_operandTexts {s o : List Char} (hnewline : '\n' ∉ s) (hs : Unmarked s)
    (ho : o ∈ operandTexts s) (hne : o ≠ []) : IsOperand o := by
  rw [operandTexts] at ho
  split at ho
  · exact absurd ho List.not_mem_nil
  · obtain ⟨piece, hpiece, rfl⟩ := List.mem_map.1 ho
    have htrim := Text.trim_isInfix piece
    have hwithin := htrim.trans (Text.isInfix_of_mem_splitOn hpiece)
    exact {
      ne_nil := hne
      last := fun _ ↦ Text.isBlank_last_trim
      newline := fun hmem ↦ hnewline (hwithin.mem hmem)
      unmarked := hs.of_isInfix hwithin
      head := fun _ ↦ Text.isBlank_head_trim
      comma := fun hmem ↦ Path.not_mem_of_mem_splitOn hpiece (htrim.mem hmem) }

/-- Where the name and the operands of a statement stand in the text that it is read from. -/
theorem texts_of_read? {s : List Char} {written : Written}
    (h : Written.read? s = .ok (some written)) :
    written.name.toList = (s.takeWhile fun c ↦ !Text.isBlank c).map Char.toLower ∧
      written.operands.map String.toList =
        operandTexts (Text.trim (s.dropWhile fun c ↦ !Text.isBlank c)) ∧
      ∀ o ∈ written.operands, o.toList ≠ [] := by
  rw [Written.read?] at h
  split at h
  · cases h
  · dsimp only at h
    split at h
    · split at h <;> cases h
    · split at h
      · cases h
      · next hfull =>
        obtain rfl := Option.some.inj (Except.ok.inj h)
        refine ⟨String.toList_ofList, ?_, fun operand hoperand hnil ↦ hfull ?_⟩
        · rw [List.map_map]
          exact (List.map_congr_left fun o _ ↦ String.toList_ofList).trans (List.map_id _)
        · obtain ⟨o, ho, rfl⟩ := List.mem_map.1 hoperand
          rw [String.toList_ofList] at hnil
          exact List.any_eq_true.2 ⟨o, ho, List.isEmpty_iff.2 hnil⟩

theorem isOperand_of_read? {s : List Char} {written : Written} (hnewline : '\n' ∉ s)
    (hs : Unmarked s) (h : Written.read? s = .ok (some written)) :
    ∀ o ∈ written.operands, IsOperand o.toList := by
  obtain ⟨-, htexts, hne⟩ := texts_of_read? h
  have htail : Text.trim (s.dropWhile fun c ↦ !Text.isBlank c) <:+: s :=
    (Text.trim_isInfix _).trans (List.dropWhile_suffix _).isInfix
  intro operand hoperand
  exact isOperand_of_mem_operandTexts (fun hmem ↦ hnewline (htail.mem hmem)) (hs.of_isInfix htail)
    (htexts ▸ List.mem_map_of_mem hoperand) (hne operand hoperand)

/-- **What is read from a line are identifiers and operands.** -/
theorem isOperand_of_read {text : List Char} {names : List String} {written : Written}
    (hnewline : '\n' ∉ text) (h : Line.read text = .ok ⟨names, some written⟩) :
    (∀ name ∈ names, isIdentifier name.toList = true) ∧
      ∀ o ∈ written.operands, IsOperand o.toList := by
  obtain ⟨instruction, hread, hline⟩ := bind_eq_ok.1 h
  obtain ⟨rfl, rfl⟩ := Line.mk.inj (pure_eq_ok.1 hline)
  refine ⟨fun _ ↦ isIdentifier_of_mem_peelLabels, ?_⟩
  have hwithin : (peelLabels (Text.trim (uncommented text))).2 <:+: uncommented text :=
    (peelLabels_isInfix _).trans (Text.trim_isInfix _)
  exact isOperand_of_read? (fun hmem ↦ hnewline ((uncommented_isPrefix text).mem (hwithin.mem hmem)))
    ((unmarked_uncommented text).of_isInfix hwithin) hread

/-! ## A colon behind a name -/

theorem toLower_eq_self_or_isUpper (c : Char) : c.toLower = c ∨ c.isUpper = true := by
  by_cases h : c.val ≥ 'A'.val ∧ c.val ≤ 'Z'.val
  · exact .inr (decide_eq_true h)
  · exact .inl (dif_neg h)

theorem isIdentifierStart_of_toLower {c : Char} (h : isIdentifierStart c.toLower = true) :
    isIdentifierStart c = true := by
  rcases toLower_eq_self_or_isUpper c with hc | hc
  · rwa [hc] at h
  · have halpha : c.isAlpha = true := Bool.or_eq_true_iff.2 (.inl hc)
    simp [isIdentifierStart, halpha]

theorem isIdentifierPart_of_toLower {c : Char} (h : isIdentifierPart c.toLower = true) :
    isIdentifierPart c = true := by
  rcases toLower_eq_self_or_isUpper c with hc | hc
  · rwa [hc] at h
  · have halpha : c.isAlpha = true := Bool.or_eq_true_iff.2 (.inl hc)
    simp [isIdentifierPart, Char.isAlphanum, halpha]

/-- An identifier is one in letters of either case. -/
theorem isIdentifier_of_toLower {name : List Char}
    (h : isIdentifier (name.map Char.toLower) = true) : isIdentifier name = true := by
  cases name with
  | nil => exact h
  | cons c rest =>
    rw [List.map_cons, isIdentifier, Bool.and_eq_true, List.all_map, List.all_eq_true] at h
    rw [isIdentifier, Bool.and_eq_true, List.all_eq_true]
    exact ⟨isIdentifierStart_of_toLower h.1, fun d hd ↦ isIdentifierPart_of_toLower (h.2 d hd)⟩

/-- No identifier with a colon behind it is left when the labels are read. -/
theorem isIdentifier_of_cutAt?_peelLabels {s before after : List Char}
    (h : Text.cutAt? ':' (peelLabels s).2 = some (before, after)) :
    isIdentifier (Text.trim before) = false := by
  fun_induction peelLabels s with
  | case1 s hcut => cases hcut.symm.trans h
  | case2 s _ _ hcut first hfirst labels rest heq ih => exact ih (heq ▸ h)
  | case3 s before' after' hcut first hfirst =>
    obtain ⟨rfl, -⟩ := Prod.mk.inj (Option.some.inj (hcut.symm.trans h))
    exact Bool.eq_false_iff.2 hfirst

/-- The first operand of a text without surrounding blanks begins as the text does. -/
theorem head_of_operandTexts {s o : List Char} {more : List (List Char)} {c : Char}
    (h : operandTexts (Text.trim s) = o :: more) (hc : o.head? = some c) :
    (Text.trim s).head? = some c := by
  rw [operandTexts] at h
  split at h
  · cases h
  · obtain ⟨piece, pieces, hsplit⟩ :=
      List.exists_cons_of_ne_nil (Text.splitOn_ne_nil ',' (Text.trim s))
    rw [hsplit, List.map_cons] at h
    obtain ⟨behind, hbehind⟩ := Text.isPrefix_of_splitOn hsplit
    have ho : Text.trim piece = o := (List.cons.inj h).1
    cases piece with
    | nil => rw [← ho] at hc; cases hc
    | cons d tail =>
      have hhead : (Text.trim s).head? = some d := by rw [← hbehind]; rfl
      have hstart : Text.trimStart (d :: tail) = d :: tail := Text.trimStart_of_head fun e he ↦
        Text.isBlank_head_trim (s := s) (by rwa [hhead])
      obtain ⟨rest, hrest⟩ := Text.trim_isPrefix (d :: tail)
      rw [hstart, ho] at hrest
      rw [hhead, ← hc, ← List.head?_append_of_ne_nil o (fun hnil ↦ by rw [hnil] at hc; cases hc),
        hrest]
      rfl

/-- A text that no identifier with a colon begins has no colon next to the identifier that it begins
with. -/
theorem head_behind_identifier {s : List Char}
    (hno : ∀ before after, Text.cutAt? ':' s = some (before, after) →
      isIdentifier (Text.trim before) = false)
    (hid : isIdentifier (s.takeWhile fun c ↦ !Text.isBlank c) = true) :
    (Text.trim (s.dropWhile fun c ↦ !Text.isBlank c)).head? ≠ some ':' := by
  intro hcolon
  obtain ⟨blanks, after, hbehind, hblank⟩ := Text.exists_of_head?_trim hcolon
  have hs := List.takeWhile_append_dropWhile (p := fun c ↦ !Text.isBlank c) (l := s)
  rw [hbehind] at hs
  generalize s.takeWhile (fun c ↦ !Text.isBlank c) = name at hid hs
  have hvisible : ∀ c ∈ name, Text.isBlank c = false := fun c hc ↦
    isBlank_of_isIdentifierPart (isIdentifierPart_of_mem hid hc)
  have hcut : Text.cutAt? ':' s = some (name ++ blanks, after) := by
    refine Text.cutAt?_eq_some.2 ⟨by rw [← hs, List.append_assoc], fun hmem ↦ ?_⟩
    rcases List.mem_append.1 hmem with hmem | hmem
    · exact absurd (isIdentifierPart_of_mem hid hmem) (by decide)
    · exact absurd (hblank _ hmem) (by decide)
  have hfalse := hno _ _ hcut
  rw [Text.trim_append_blanks (ne_nil_of_isIdentifier hid) (fun c hc ↦ hvisible c (List.mem_of_head? hc))
    (fun c hc ↦ hvisible c (List.mem_of_getLast? hc)) hblank, hid] at hfalse
  cases hfalse

/-- **Where a statement is read, its first operand begins with no colon**, if its name is an
identifier. -/
theorem colon_of_read {text : List Char} {names : List String} {written : Written}
    (hname : isIdentifier written.name.toList = true)
    (h : Line.read text = .ok ⟨names, some written⟩) :
    ∀ o ∈ written.operands.head?, o.toList.head? ≠ some ':' := by
  obtain ⟨instruction, hread, hline⟩ := bind_eq_ok.1 h
  obtain ⟨-, rfl⟩ := Line.mk.inj (pure_eq_ok.1 hline)
  have hno : ∀ before after,
      Text.cutAt? ':' (peelLabels (Text.trim (uncommented text))).2 = some (before, after) →
        isIdentifier (Text.trim before) = false := fun _ _ ↦ isIdentifier_of_cutAt?_peelLabels
  generalize (peelLabels (Text.trim (uncommented text))).2 = s at hread hno
  obtain ⟨hlower, htexts, -⟩ := texts_of_read? hread
  intro operand hoperand hcolon
  obtain ⟨more, hmore⟩ := List.head?_eq_some_iff.1 hoperand
  rw [hmore, List.map_cons] at htexts
  rw [hlower] at hname
  exact head_behind_identifier hno (isIdentifier_of_toLower hname)
    (head_of_operandTexts htexts.symm hcolon)

/-! ## Registers and integers written out -/

open Text.Numeral (write digitChar)

/-- The spelling of a register by its number. -/
def Register.spell (r : Register) : String := "x" ++ Text.Numeral.decimal r.toNat

theorem read?_spell_register : ∀ r : Register, Register.read? r.spell.toList = some r := by
  decide +kernel

theorem isIdentifierPart_of_mem_write {n : Nat} {c : Char} (h : c ∈ write 10 n) :
    isIdentifierPart c = true ∧ c ≠ '_' := by
  rw [Text.Numeral.write_eq_map] at h
  obtain ⟨d, hd, rfl⟩ := List.mem_map.1 h
  have hall : ∀ d < 10, isIdentifierPart (digitChar d) = true ∧ digitChar d ≠ '_' := by decide
  exact hall d (Text.Numeral.lt_of_mem_decimalDigits hd)

theorem write_ne_nil (n : Nat) : write 10 n ≠ [] := by
  rw [Text.Numeral.write_eq_map]
  exact mt List.map_eq_nil_iff.1 (Text.Numeral.decimalDigits_ne_nil n)

theorem isOperand_integer (v : Int) : IsOperand (Text.Numeral.integer v).toList := by
  rw [Text.Numeral.integer, Text.Numeral.decimal]
  split <;> rw [String.toList_ofList]
  · refine isOperand_of_forall (List.cons_ne_nil _ _) fun c hc ↦ ?_
    rcases List.mem_cons.1 hc with rfl | hc
    · exact .inr rfl
    · exact .inl (isIdentifierPart_of_mem_write hc).1
  · exact isOperand_of_forall (write_ne_nil _) fun c hc ↦ .inl (isIdentifierPart_of_mem_write hc).1

theorem isOperand_spell_register (r : Register) : IsOperand r.spell.toList := by
  rw [Register.spell, String.toList_append, Text.Numeral.decimal, String.toList_ofList]
  refine isOperand_of_forall (by simp) fun c hc ↦ .inl ?_
  rcases List.mem_append.1 hc with hc | hc
  · obtain rfl : c = 'x' := by simpa using hc
    decide
  · exact (isIdentifierPart_of_mem_write (String.toList_ofList ▸ hc)).1

theorem integer_eq_spell (v : Int) : Text.Numeral.integer v = Literal.spell [] 10 false v := by
  rw [Text.Numeral.integer, Literal.spell]
  split <;> rfl

/-- Every integer has a literal. -/
theorem isLiteral_integer (v : Int) : Literal.IsLiteral (Text.Numeral.integer v).toList v := by
  rw [integer_eq_spell]
  exact Literal.isLiteral_spell (by decide) false v

/-- **An integer is read back from its numeral**, unless it is too large for a literal. -/
theorem read?_integer (v : Int) :
    Literal.read? (Text.Numeral.integer v).toList =
      if v.natAbs < Literal.bound then some v else none := by
  have hoperand := isOperand_integer v
  rw [Literal.read?, hoperand.trim_eq hoperand.head,
    Literal.value?_of_isLiteral (isLiteral_integer v)]

end Assembly
end FirmwareLane
