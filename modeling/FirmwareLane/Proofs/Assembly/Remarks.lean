import FirmwareLane.Proofs.Assembly.Joining
import FirmwareLane.Proofs.Assembly.Layout

/-!
# Remarks

A line that is blank, or has a comment and nothing in front of it, declares nothing and takes no
word.  All that it changes about a program is the number of each line below it; and a comment at the
end of a line changes nothing at all.

Both passes over a program go on after such a line with what they had before it.  The numbers of the
lines are in the statements and in the failures, and neither pass looks at one, so whatever the lines
are numbered by, the outcome is numbered likewise.

## What is here

* `IsRemark` are the lines that say nothing, and `read_remark` says so.
* `ofLines_insertIdx` has the layout of a program with a remark in it.  It rests on `ofLines_cons`,
  which numbers one line, and `ofLines_numbered`, which numbers all lines below.
* `remarks_shift_lines` is the statement about whole source texts.
-/

set_option autoImplicit false
namespace FirmwareLane
namespace Assembly

open Outcome

/-! ## Lines that say nothing -/

/-- What a comment begins with. -/
def commentMarks : List (List Char) := [['#'], [';'], ['/', '/']]

/-- Blanks, with nothing or a comment behind them. -/
inductive IsRemark : List Char → Prop
  | blank {blanks : List Char} (h : ∀ c ∈ blanks, Text.isBlank c = true) : IsRemark blanks
  | comment {blanks mark : List Char} (h : ∀ c ∈ blanks, Text.isBlank c = true)
      (hmark : mark ∈ commentMarks) (text : List Char) : IsRemark (blanks ++ (mark ++ text))

theorem uncommented_comment {mark : List Char} (h : mark ∈ commentMarks) (text : List Char) :
    uncommented (mark ++ text) = [] := by
  have hmarks : mark = ['#'] ∨ mark = [';'] ∨ mark = ['/', '/'] := by
    simpa only [commentMarks, List.mem_cons, List.not_mem_nil, or_false] using h
  rcases hmarks with rfl | rfl | rfl <;> rfl

theorem uncommented_blanks {blanks : List Char} (h : ∀ c ∈ blanks, Text.isBlank c = true)
    (rest : List Char) : uncommented (blanks ++ rest) = blanks ++ uncommented rest := by
  induction blanks with
  | nil => rfl
  | cons c more ih =>
    have hc := h c List.mem_cons_self
    have hmarks : c ≠ '/' ∧ c ≠ '#' ∧ c ≠ ';' :=
      ⟨fun heq ↦ absurd (heq ▸ hc) (by decide), fun heq ↦ absurd (heq ▸ hc) (by decide),
        fun heq ↦ absurd (heq ▸ hc) (by decide)⟩
    rw [List.cons_append, uncommented, if_neg (by simp [hmarks]),
      ih fun d hd ↦ h d (List.mem_cons_of_mem _ hd)]
    · rfl
    · exact fun _ hslash ↦ absurd hslash hmarks.1

theorem trim_blanks {blanks : List Char} (h : ∀ c ∈ blanks, Text.isBlank c = true) :
    Text.trim blanks = [] := by
  induction blanks with
  | nil => rfl
  | cons c more ih =>
    rw [Text.trim_cons_blank (h c List.mem_cons_self),
      ih fun d hd ↦ h d (List.mem_cons_of_mem _ hd)]

theorem IsRemark.trim_uncommented {line : List Char} (h : IsRemark line) :
    Text.trim (uncommented line) = [] := by
  cases h with
  | blank h =>
    have hblanks := uncommented_blanks h []
    rw [List.append_nil, uncommented, List.append_nil] at hblanks
    rw [hblanks, trim_blanks h]
  | comment h hmark text =>
    rw [uncommented_blanks h, uncommented_comment hmark, List.append_nil, trim_blanks h]

/-- **A remark declares nothing.** -/
theorem read_remark {line : List Char} (h : IsRemark line) :
    Line.read line = .ok ⟨[], none⟩ := by
  rw [Line.read, h.trim_uncommented]
  exact read_nil

/-- A comment at the end is cut off, whatever stands in front of it. -/
theorem uncommented_append_comment (text comment : List Char) :
    uncommented (text ++ '#' :: comment) = uncommented text := by
  fun_induction uncommented text with
  | case1 => rfl
  | case2 rest => rfl
  | case3 c rest hslashes hmark => rcases hmark with rfl | rfl <;> rfl
  | case4 c rest hslashes hmark ih =>
    rw [List.cons_append, uncommented, if_neg hmark, ih]
    -- a slash before the mark is not followed by one
    intro tail hc heq
    cases rest with
    | nil => exact absurd (List.cons.inj heq).1 (by decide)
    | cons d more => exact hslashes more hc (by rw [(List.cons.inj heq).1])

theorem read_append_comment (text comment : List Char) :
    Line.read (text ++ '#' :: comment) = Line.read text := by
  rw [Line.read, Line.read, uncommented_append_comment]

/-! ## Lines under other numbers -/

section Numbering

variable (number : Nat → Nat)

/-- A failure at a line of another number. -/
def Failure.numbered (failure : Failure) : Failure := ⟨number failure.line, failure.fault⟩

/-- A statement on a line of another number. -/
def Placed.numbered (p : Placed) : Placed :=
  ⟨p.address, { p.statement with line := number p.statement.line }⟩

/-- A layout of lines of other numbers. -/
def Layout.numbered (layout : Layout) : Layout :=
  ⟨layout.placed.map (Placed.numbered number), layout.labels⟩

/-- A layout, or why there is none, under other numbers. -/
def renumbered (result : Except Failure Layout) : Except Failure Layout :=
  (result.map (Layout.numbered number)).mapError (Failure.numbered number)

theorem onLine_numbered {α : Type} (line : Nat) (result : Except Fault α) :
    (onLine line result).mapError (Failure.numbered number) = onLine (number line) result := by
  cases result <;> rfl

theorem renumbered_bind {α : Type} (line : Nat) (result : Except Fault α)
    (next : α → Except Failure Layout) :
    renumbered number (onLine line result >>= next) =
      onLine (number line) result >>= fun a ↦ renumbered number (next a) := by
  cases result <;> rfl

/-- One more line in front, under its number. -/
theorem ofLines_cons {line line' : Nat} (hline : number line = line')
    {rest rest' : List (List Char)}
    (hrest : ∀ address labels, Layout.ofLines (line' + 1) address labels rest' =
      renumbered number (Layout.ofLines (line + 1) address labels rest))
    (address : Word) (labels : Labels) (text : List Char) :
    Layout.ofLines line' address labels (text :: rest') =
      renumbered number (Layout.ofLines line address labels (text :: rest)) := by
  subst hline
  rw [Layout.ofLines, Layout.ofLines, renumbered_bind]
  refine congrArg _ (funext fun read ↦ ?_)
  rw [renumbered_bind]
  refine congrArg _ (funext fun labels' ↦ ?_)
  cases read.instruction with
  | none => exact hrest address labels'
  | some written =>
    dsimp only
    rw [renumbered_bind]
    refine congrArg _ (funext fun size ↦ ?_)
    rw [hrest]
    cases Layout.ofLines (line + 1) _ labels' rest <;> rfl

/-- Lines are laid out under any numbers in a row. -/
theorem ofLines_numbered {lines : List (List Char)} {line line' : Nat}
    (h : ∀ i, number (line + i) = line' + i) (address : Word) (labels : Labels) :
    Layout.ofLines line' address labels lines =
      renumbered number (Layout.ofLines line address labels lines) := by
  induction lines generalizing line line' address labels with
  | nil => rfl
  | cons text rest ih =>
    have hfirst : number line = line' := h 0
    refine ofLines_cons number hfirst (fun address labels ↦ ih (fun i ↦ ?_) address labels) _ _ _
    rw [Nat.add_assoc, Nat.add_assoc, h]

theorem wordsOf_numbered (layout : Layout) (p : Placed) :
    (layout.numbered number).wordsOf (p.numbered number) =
      (layout.wordsOf p).mapError (Failure.numbered number) :=
  (onLine_numbered number _ _).symm

theorem words_numbered (layout : Layout) :
    (layout.numbered number).words = layout.words.mapError (Failure.numbered number) := by
  have hchunks : (layout.placed.map (Placed.numbered number)).mapM
      (layout.numbered number).wordsOf =
        (layout.placed.mapM layout.wordsOf).mapError (Failure.numbered number) :=
    mapM_map_eq (wordsOf_numbered number layout) layout.placed
  rw [Layout.words, Layout.words, mapError_bind, ← hchunks]
  rfl

/-- **Both passes go by the numbers that the lines have.** -/
theorem words_renumbered (result : Except Failure Layout) :
    (renumbered number result >>= Layout.words) =
      (result >>= Layout.words).mapError (Failure.numbered number) := by
  cases result with
  | error failure => rfl
  | ok layout => exact words_numbered number layout

end Numbering

/-! ## A line more -/

/-- The number of a line when there is one more line, with the number that is given. -/
def below (first line : Nat) : Nat := if line < first then line else line + 1

theorem below_of_lt {first line : Nat} (h : line < first) : below first line = line := if_pos h

theorem below_of_le {first line : Nat} (h : first ≤ line) : below first line = line + 1 :=
  if_neg (Nat.not_lt.2 h)

/-- **A line that declares nothing is laid out by going on below it.** -/
theorem ofLines_insertIdx {line : Nat} {lines : List (List Char)} {k : Nat} {text : List Char}
    (hread : Line.read text = .ok ⟨[], none⟩) (hk : k ≤ lines.length) (address : Word)
    (labels : Labels) :
    Layout.ofLines line address labels (lines.insertIdx k text) =
      renumbered (below (line + k)) (Layout.ofLines line address labels lines) := by
  induction k generalizing line lines address labels with
  | zero =>
    have hskip : Layout.ofLines line address labels (text :: lines) =
        Layout.ofLines (line + 1) address labels lines := by
      rw [Layout.ofLines, hread]
      rfl
    rw [List.insertIdx_zero, hskip]
    refine ofLines_numbered _ (fun i ↦ ?_) address labels
    rw [below_of_le (by omega), Nat.add_right_comm]
  | succ k ih =>
    cases lines with
    | nil => exact absurd hk (by simp)
    | cons first rest =>
      rw [List.insertIdx_succ_cons]
      refine ofLines_cons _ (below_of_lt (by omega)) (fun address labels ↦ ?_) _ _ _
      rw [ih (Nat.le_of_succ_le_succ hk), Nat.add_assoc, Nat.add_comm 1]

/-- Only what the lines declare matters. -/
theorem ofLines_congr {lines lines' : List (List Char)}
    (h : lines'.map Line.read = lines.map Line.read) (line : Nat) (address : Word)
    (labels : Labels) :
    Layout.ofLines line address labels lines' = Layout.ofLines line address labels lines := by
  induction lines generalizing lines' line address labels with
  | nil => rw [List.map_eq_nil_iff.1 h]
  | cons text rest ih =>
    obtain ⟨text', rest', rfl, hread, hrest⟩ := List.map_eq_cons_iff.1 h
    rw [Layout.ofLines, Layout.ofLines, hread]
    simp only [ih hrest]

/-! ## Whole source texts -/

theorem exists_source {lines : List (List Char)} (h : ∀ line ∈ lines, '\n' ∉ line) :
    ∃ source : String, Text.lines source.toList = lines :=
  ⟨String.ofList (Text.terminated lines), by rw [String.toList_ofList, Text.lines_terminated h]⟩

/-- There is a label on the line, or a directive, or an instruction. -/
inductive Carries (text : List Char) : Prop
  | label {name : String} (h : name ∈ (peelLabels (Text.trim (uncommented text))).1)
  | directive (h : (peelLabels (Text.trim (uncommented text))).2.head? = some '.')
  | instruction {c : Char} (h : (peelLabels (Text.trim (uncommented text))).2.head? = some c)
      (hc : c ≠ '.')

theorem carries_of_read_ne {text : List Char} (h : Line.read text ≠ .ok ⟨[], none⟩) :
    Carries text := by
  cases hpeel : peelLabels (Text.trim (uncommented text)) with
  | mk labels rest =>
    cases labels with
    | cons name more =>
      have hname : name ∈ (peelLabels (Text.trim (uncommented text))).1 := by
        rw [hpeel]
        exact List.mem_cons_self
      exact .label hname
    | nil =>
      cases rest with
      | nil => exact absurd (by rw [Line.read, hpeel]; rfl) h
      | cons c tail =>
        by_cases hc : c = '.'
        · exact .directive (by rw [hpeel, hc]; rfl)
        · exact .instruction (by rw [hpeel]; rfl) hc

/-- **Comments and blank lines only shift the numbers of lines.**  One more remark anywhere among
the lines of a source text leaves its words as they are, and a failure too, but for its line, which
is one further down if it stood at the place of the remark or below it.  A comment behind any line
changes nothing.  A failure is at one of the lines, and that line has a label, a directive or an
instruction. -/
theorem remarks_shift_lines (source : String) :
    (∀ k line, k ≤ (Text.lines source.toList).length → '\n' ∉ line → IsRemark line →
      (∃ source' : String,
        Text.lines source'.toList = (Text.lines source.toList).insertIdx k line) ∧
      ∀ source' : String,
        Text.lines source'.toList = (Text.lines source.toList).insertIdx k line →
          assemble source' = (assemble source).mapError (Failure.numbered (below (k + 1)))) ∧
    (∀ i text comment, (Text.lines source.toList)[i]? = some text → '\n' ∉ comment →
      (∃ source' : String,
        Text.lines source'.toList = (Text.lines source.toList).set i (text ++ '#' :: comment)) ∧
      ∀ source' : String,
        Text.lines source'.toList = (Text.lines source.toList).set i (text ++ '#' :: comment) →
          assemble source' = assemble source) ∧
    ∀ failure, assemble source = .error failure →
      0 < failure.line ∧ failure.line ≤ (Text.lines source.toList).length ∧
        ∃ text, (Text.lines source.toList)[failure.line - 1]? = some text ∧ Carries text := by
  have hfeed : ∀ line ∈ Text.lines source.toList, '\n' ∉ line := fun _ ↦ Text.not_mem_of_mem_lines
  refine ⟨fun k line hk hnewline hremark ↦ ⟨exists_source fun other hother ↦ ?_, ?_⟩,
    fun i text comment htext hnewline ↦ ⟨exists_source fun other hother ↦ ?_, ?_⟩, ?_⟩
  · rcases List.eq_or_mem_of_mem_insertIdx hother with rfl | hother
    · exact hnewline
    · exact hfeed other hother
  · intro source' hlines
    rw [assemble, assemble, Layout.ofSource, Layout.ofSource, hlines,
      ofLines_insertIdx (read_remark hremark) hk, words_renumbered, Nat.add_comm 1]
  · rcases List.mem_or_eq_of_mem_set hother with hother | rfl
    · exact hfeed other hother
    · have htext := hfeed text (List.mem_of_getElem? htext)
      simp [htext, hnewline]
  · intro source' hlines
    have hreads : (Text.lines source'.toList).map Line.read =
        (Text.lines source.toList).map Line.read := by
      obtain ⟨hi, rfl⟩ := List.getElem?_eq_some_iff.1 htext
      rw [hlines, List.map_set, read_append_comment, ← List.map_set, List.set_getElem_self]
    rw [assemble, assemble, Layout.ofSource, Layout.ofSource, ofLines_congr hreads]
  · intro failure h
    obtain ⟨i, text, htext, hline, hread⟩ := exists_of_assemble h
    have hlt := (List.getElem?_eq_some_iff.1 htext).1
    refine ⟨by omega, by omega, text, ?_, carries_of_read_ne hread⟩
    rwa [hline, Nat.add_sub_cancel]

/-- A remark between two lines, and a comment behind the one that is refused. -/
theorem remarks_shift_lines_of_call :
    assemble "nop\n \t// calls\r\njal x1, f" = .error ⟨3, .undefinedLabel "f"⟩ ∧
      assemble "nop\njal x1, f# no f" = .error ⟨2, .undefinedLabel "f"⟩ ∧
      Carries "jal x1, f".toList := by
  have hfailure : assemble "nop\njal x1, f" = .error ⟨2, .undefinedLabel "f"⟩ := by decide +kernel
  have hlines : Text.lines "nop\njal x1, f".toList = ["nop".toList, "jal x1, f".toList] := by
    decide +kernel
  obtain ⟨hremark, hcomment, hcarries⟩ := remarks_shift_lines "nop\njal x1, f"
  refine ⟨?_, ?_, ?_⟩
  · have hblanks : ∀ c ∈ [' ', '\t'], Text.isBlank c = true := List.all_eq_true.1 (by decide)
    rw [(hremark 1 " \t// calls".toList (by rw [hlines]; decide) (by decide)
      (.comment hblanks (List.mem_cons_of_mem _ (List.mem_cons_of_mem _ List.mem_cons_self))
        " calls".toList)).2 _ (by decide +kernel), hfailure]
    rfl
  · rw [(hcomment 1 "jal x1, f".toList " no f".toList (by rw [hlines]; rfl) (by decide)).2 _
      (by decide +kernel), hfailure]
  · obtain ⟨-, -, text, htext, hcarries⟩ := hcarries _ hfailure
    rw [hlines] at htext
    exact Option.some.inj htext ▸ hcarries

end Assembly
end FirmwareLane
