import FirmwareLane.Text.Blank
import Mathlib.Data.List.Infix
import Mathlib.Data.List.TakeWhile

/-!
# Blanks at the ends of a text, its lines and its pieces

Cutting the blanks off a text leaves a piece of it with no blank at either end, and leaves a text of
that kind alone.

The lines of a text are the text again when each of them is followed by a line end.  Which line end
that is matters for a line that ends in a carriage return, since a line feed alone would take the
carriage return with it.

## What is here

* `trim_append` and `trim_eq_self_iff` say what cutting the blanks off leaves.
* `lines_terminated` finds lines again, and `lines_append_feed` and `ended_lines` say what a line
  feed between two texts or behind one does to the lines.
* `toLineFeeds_eq_self_iff` are the texts in which no line end is replaced.
-/

set_option autoImplicit false
namespace FirmwareLane
namespace Text

/-! ## Blanks at the ends -/

theorem trim_isPrefix (s : List Char) : trim s <+: trimStart s := by
  rw [← List.reverse_suffix, trim, trimEnd, List.reverse_reverse]
  exact List.dropWhile_suffix _

theorem trim_isInfix (s : List Char) : trim s <:+: s :=
  (trim_isPrefix s).isInfix.trans (List.dropWhile_suffix _).isInfix

theorem isBlank_head_dropWhile {s : List Char} {c : Char}
    (h : c ∈ (s.dropWhile isBlank).head?) : isBlank c = false := by
  have hnot := List.head?_dropWhile_not isBlank s
  rwa [Option.mem_def.1 h] at hnot

theorem isBlank_head_trim {s : List Char} {c : Char} (h : c ∈ (trim s).head?) :
    isBlank c = false := by
  obtain ⟨rest, hrest⟩ := trim_isPrefix s
  refine isBlank_head_dropWhile (s := s) ?_
  rw [← trimStart, ← hrest, List.head?_append_of_ne_nil]
  · exact h
  · exact fun hnil ↦ absurd h (by simp [hnil])

theorem isBlank_last_trim {s : List Char} {c : Char} (h : c ∈ (trim s).getLast?) :
    isBlank c = false := by
  rw [trim, trimEnd, List.getLast?_reverse] at h
  exact isBlank_head_dropWhile h

theorem trimStart_of_head {s : List Char} (h : ∀ c ∈ s.head?, isBlank c = false) :
    trimStart s = s := by
  cases s with
  | nil => rfl
  | cons c rest => exact List.dropWhile_cons_of_neg (by simp [h c rfl])

/-- Nothing is cut off what lies between two characters that are not blank. -/
theorem trim_append {a : List Char} (hne : a ≠ []) (hhead : ∀ c ∈ a.head?, isBlank c = false)
    (hlast : ∀ c ∈ a.getLast?, isBlank c = false) (rest : List Char) :
    trim (a ++ rest) = a ++ trimEnd rest := by
  have hstart : trimStart (a ++ rest) = a ++ rest :=
    trimStart_of_head (by rwa [List.head?_append_of_ne_nil _ hne])
  have hreverse : a.reverse.dropWhile isBlank = a.reverse :=
    trimStart_of_head (by rwa [List.head?_reverse])
  rw [trim, hstart, trimEnd, trimEnd, List.reverse_append, List.dropWhile_append]
  split
  · next hempty => rw [hreverse, List.isEmpty_iff.1 hempty]; simp
  · rw [List.reverse_append, List.reverse_reverse]

/-- Blanks behind a text are cut off. -/
theorem trim_append_blanks {a blanks : List Char} (hne : a ≠ [])
    (hhead : ∀ c ∈ a.head?, isBlank c = false) (hlast : ∀ c ∈ a.getLast?, isBlank c = false)
    (h : ∀ c ∈ blanks, isBlank c = true) : trim (a ++ blanks) = a := by
  rw [trim_append hne hhead hlast, trimEnd,
    List.dropWhile_eq_nil_iff.2 fun c hc ↦ h c (List.mem_reverse.1 hc), List.reverse_nil,
    List.append_nil]

/-- Only blanks stand in front of what is left of a text. -/
theorem exists_of_head?_trim {s : List Char} {c : Char} (h : (trim s).head? = some c) :
    ∃ blanks after, s = blanks ++ c :: after ∧ ∀ b ∈ blanks, isBlank b = true := by
  obtain ⟨rest, hrest⟩ := trim_isPrefix s
  obtain ⟨tail, htail⟩ := List.head?_eq_some_iff.1 h
  have hstart : s.dropWhile isBlank = c :: (tail ++ rest) := by
    rw [← trimStart, ← hrest, htail]
    rfl
  refine ⟨s.takeWhile isBlank, tail ++ rest, ?_, List.all_eq_true.1 List.all_takeWhile⟩
  rw [← hstart, List.takeWhile_append_dropWhile]

/-- **A text is left alone if it has no blank at either end.** -/
theorem trim_eq_self_iff {s : List Char} :
    trim s = s ↔ (∀ c ∈ s.head?, isBlank c = false) ∧ ∀ c ∈ s.getLast?, isBlank c = false := by
  refine ⟨fun h ↦ h ▸ ⟨fun _ ↦ isBlank_head_trim, fun _ ↦ isBlank_last_trim⟩, fun h ↦ ?_⟩
  cases s with
  | nil => rfl
  | cons c rest =>
    rw [← List.append_nil (c :: rest), trim_append (List.cons_ne_nil c rest) h.1 h.2]
    rfl

theorem trim_trim (s : List Char) : trim (trim s) = trim s :=
  trim_eq_self_iff.2 ⟨fun _ ↦ isBlank_head_trim, fun _ ↦ isBlank_last_trim⟩

/-- Nothing is cut off a text without blanks. -/
theorem trim_eq_self {s : List Char} (h : ∀ c ∈ s, isBlank c = false) : trim s = s :=
  trim_eq_self_iff.2 ⟨fun c hc ↦ h c (List.mem_of_head? hc), fun c hc ↦ h c (List.mem_of_getLast? hc)⟩

theorem mem_dropWhile {α : Type} {p : α → Bool} {l : List α} {a : α} (ha : a ∈ l)
    (hp : p a = false) : a ∈ l.dropWhile p := by
  rw [← List.takeWhile_append_dropWhile (p := p) (l := l), List.mem_append] at ha
  refine ha.resolve_left fun htake ↦ ?_
  rw [List.all_eq_true.1 List.all_takeWhile a htake] at hp
  cases hp

/-- A character that is no blank is not cut off. -/
theorem mem_trim {c : Char} {s : List Char} (hc : c ∈ s) (hblank : isBlank c = false) :
    c ∈ trim s := by
  rw [trim, trimEnd, List.mem_reverse]
  exact mem_dropWhile (List.mem_reverse.2 (mem_dropWhile hc hblank)) hblank

theorem trim_ne_nil {c : Char} {s : List Char} (hc : c ∈ s) (hblank : isBlank c = false) :
    trim s ≠ [] :=
  List.ne_nil_of_mem (mem_trim hc hblank)

theorem trim_cons_blank {c : Char} (h : isBlank c = true) (s : List Char) :
    trim (c :: s) = trim s := by
  rw [trim, trimStart, List.dropWhile_cons_of_pos h]
  rfl

theorem trim_concat_blank {c : Char} (h : isBlank c = true) (s : List Char) :
    trim (s ++ [c]) = trim s := by
  have hend : ∀ t : List Char, trimEnd (t ++ [c]) = trimEnd t := fun t ↦ by
    rw [trimEnd, List.reverse_append, List.reverse_singleton, List.singleton_append,
      List.dropWhile_cons_of_pos h, trimEnd]
  rw [trim, trimStart, List.dropWhile_append]
  split
  · next hempty =>
    rw [trim, trimStart, List.isEmpty_iff.1 hempty, List.dropWhile_cons_of_pos h]
    rfl
  · exact hend _

/-! ## Lines -/

theorem not_mem_of_mem_lines {s line : List Char} (h : line ∈ lines s) : '\n' ∉ line := by
  fun_induction lines s generalizing line with
  | case1 => exact absurd h List.not_mem_nil
  | case2 rest ih | case3 rest ih =>
    rcases List.mem_cons.1 h with rfl | h
    · exact List.not_mem_nil
    · exact ih h
  | case4 c rest hfeed _ hlines ih =>
    rw [List.mem_singleton.1 h]
    exact fun hc ↦ hfeed (List.mem_singleton.1 hc).symm
  | case5 c rest hfeed _ first more hlines ih =>
    rw [hlines] at ih
    rcases List.mem_cons.1 h with rfl | h
    · intro hc
      rcases List.mem_cons.1 hc with hc | hc
      · exact hfeed hc.symm
      · exact ih List.mem_cons_self hc
    · exact ih (List.mem_cons_of_mem _ h)

theorem length_lines_le (s : List Char) : (lines s).length ≤ s.length := by
  fun_induction lines s with
  | case1 => exact Nat.le_refl _
  | case2 rest ih => exact Nat.succ_le_succ ih
  | case3 rest ih => exact Nat.succ_le_succ (Nat.le_succ_of_le ih)
  | case4 c rest _ _ hlines ih => exact Nat.succ_le_succ (Nat.zero_le _)
  | case5 c rest _ _ line more hlines ih =>
    rw [hlines] at ih
    exact Nat.le_succ_of_le ih

theorem lines_eq_nil_iff {s : List Char} : lines s = [] ↔ s = [] := by
  refine ⟨fun h ↦ ?_, fun h ↦ h ▸ rfl⟩
  fun_cases lines s with
  | case1 => rfl
  | _ => simp_all [lines]

/-- A character that ends no line stands in front of the first line of what follows it. -/
theorem lines_of_no_end {c : Char} {rest line : List Char} {more : List (List Char)}
    (hc : c ≠ '\n') (hend : ∀ tail, c = '\r' → rest ≠ '\n' :: tail)
    (h : lines rest = line :: more) : lines (c :: rest) = (c :: line) :: more := by
  rw [lines, h]
  · exact fun hfeed ↦ hc hfeed
  · exact fun tail hreturn hrest ↦ hend tail hreturn hrest

theorem lines_of_not_mem {s : List Char} (hne : s ≠ []) (h : '\n' ∉ s) : lines s = [s] := by
  induction s with
  | nil => exact absurd rfl hne
  | cons c rest ih =>
    rw [List.mem_cons, not_or] at h
    rcases eq_or_ne rest [] with rfl | hrest
    · rw [lines]
      · rfl
      · exact fun hc ↦ h.1 hc.symm
      · exact nofun
    · refine lines_of_no_end (fun hc ↦ h.1 hc.symm) ?_ (ih hrest h.2)
      rintro tail - rfl
      exact h.2 List.mem_cons_self

/-- A line that is followed by a line end stands in front of the lines behind it. -/
theorem lines_append_end {line : List Char} (h : '\n' ∉ line) (rest : List Char) :
    lines (line ++ '\r' :: '\n' :: rest) = line :: lines rest := by
  induction line with
  | nil => rfl
  | cons c more ih =>
    rw [List.mem_cons, not_or] at h
    refine lines_of_no_end (fun hc ↦ h.1 hc.symm) ?_ (ih h.2)
    rintro tail - heq
    cases more with
    | nil => exact absurd (List.cons.inj heq).1 (by decide)
    | cons d _ => exact h.2 ((List.cons.inj heq).1 ▸ List.mem_cons_self)

/-- Lines, each with a line end behind it. -/
def terminated (text : List (List Char)) : List Char :=
  text.flatMap (· ++ ['\r', '\n'])

/-- **Lines are found again in the text that they are put together to.** -/
theorem lines_terminated {text : List (List Char)} (h : ∀ line ∈ text, '\n' ∉ line) :
    lines (terminated text) = text := by
  induction text with
  | nil => rfl
  | cons line rest ih =>
    rw [terminated, List.flatMap_cons, List.append_assoc, List.cons_append, List.cons_append,
      List.nil_append, lines_append_end (h line List.mem_cons_self)]
    exact congrArg _ (ih fun other hother ↦ h other (List.mem_cons_of_mem _ hother))

/-! ### Two texts with a line feed between them -/

/-- A character that ends no line does not end one because of what follows the rest of the text. -/
theorem exists_lines_append {c : Char} {rest : List Char} (hc : c ≠ '\n')
    (hend : ∀ tail, c = '\r' → rest = '\n' :: tail → False) (hne : rest ≠ []) (others : List Char) :
    ∃ line more, lines (rest ++ others) = line :: more ∧
      lines (c :: rest ++ others) = (c :: line) :: more := by
  obtain ⟨d, tail, rfl⟩ := List.exists_cons_of_ne_nil hne
  obtain ⟨line, more, hlines⟩ :=
    List.exists_cons_of_ne_nil (lines_eq_nil_iff.not.2 (List.cons_ne_nil d (tail ++ others)))
  refine ⟨line, more, hlines, lines_of_no_end hc (fun _ hreturn heq ↦ ?_) hlines⟩
  exact hend tail hreturn (by rw [(List.cons.inj heq).1])

/-- A line feed between two texts ends the lines of the first one. -/
theorem lines_append_feed (s t : List Char) :
    lines (s ++ '\n' :: t) = lines (s ++ ['\n']) ++ lines t := by
  fun_induction lines s with
  | case1 => rfl
  | case2 rest ih | case3 rest ih => exact congrArg _ ih
  | case4 c rest hfeed _ hlines _ =>
    obtain rfl : rest = [] := lines_eq_nil_iff.1 hlines
    by_cases hc : c = '\r'
    · rw [hc]
      rfl
    · have hlast : ∀ others, lines (c :: '\n' :: others) = [c] :: lines others := fun others ↦
        lines_of_no_end hfeed (fun _ hreturn ↦ absurd hreturn hc) rfl
      exact (hlast t).trans (congrArg (· ++ lines t) (hlast [])).symm
  | case5 c rest hfeed hreturn line more hlines ih =>
    have hne : rest ≠ [] := lines_eq_nil_iff.not.1 (by rw [hlines]; exact List.cons_ne_nil _ _)
    obtain ⟨first, others, hfirst, hall⟩ := exists_lines_append hfeed hreturn hne ['\n']
    obtain ⟨first', others', hfirst', hall'⟩ := exists_lines_append hfeed hreturn hne ('\n' :: t)
    rw [hfirst, hfirst'] at ih
    obtain ⟨rfl, hmore⟩ := List.cons.inj ih
    rw [hall, hall', hmore]
    rfl

/-- The lines of a text, and those of the text with a line feed at its end. -/
inductive Ended : List (List Char) → List (List Char) → Prop
  /-- Behind a text that ends with a line end, or is empty, the line feed ends an empty line. -/
  | blank : Ended [] [[]]
  | last (line : List Char) : Ended [line] [line]
  /-- A carriage return at the end becomes a part of the line end. -/
  | carriage (line : List Char) : Ended [line ++ ['\r']] [line]
  | cons (line : List Char) {text text' : List (List Char)} (h : Ended text text') :
      Ended (line :: text) (line :: text')

theorem Ended.cons_head {c : Char} {line line' : List Char} {more more' : List (List Char)}
    (h : Ended (line :: more) (line' :: more')) :
    Ended ((c :: line) :: more) ((c :: line') :: more') := by
  generalize htext : line :: more = text at h
  generalize htext' : line' :: more' = text' at h
  cases h with
  | blank => cases htext
  | last l =>
    obtain ⟨rfl, rfl⟩ := List.cons.inj htext
    obtain ⟨rfl, rfl⟩ := List.cons.inj htext'
    exact .last _
  | carriage l =>
    obtain ⟨rfl, rfl⟩ := List.cons.inj htext
    obtain ⟨rfl, rfl⟩ := List.cons.inj htext'
    exact .carriage (c :: line')
  | cons l hmore =>
    obtain ⟨rfl, rfl⟩ := List.cons.inj htext
    obtain ⟨rfl, rfl⟩ := List.cons.inj htext'
    exact .cons _ hmore

theorem ended_lines (s : List Char) : Ended (lines s) (lines (s ++ ['\n'])) := by
  fun_induction lines s with
  | case1 => exact .blank
  | case2 rest ih | case3 rest ih => exact .cons [] ih
  | case4 c rest hfeed _ hlines _ =>
    obtain rfl : rest = [] := lines_eq_nil_iff.1 hlines
    by_cases hc : c = '\r'
    · rw [hc]
      exact .carriage []
    · rw [List.cons_append, List.nil_append, lines_of_no_end hfeed (fun _ hc' ↦ absurd hc' hc) rfl]
      exact .last [c]
  | case5 c rest hfeed hreturn line more hlines ih =>
    have hne : rest ≠ [] := lines_eq_nil_iff.not.1 (by rw [hlines]; exact List.cons_ne_nil _ _)
    obtain ⟨first, others, hfirst, hall⟩ := exists_lines_append hfeed hreturn hne ['\n']
    rw [hlines, hfirst] at ih
    rw [hall]
    exact ih.cons_head

/-! ## Line ends that are replaced

Replacing the line ends of a text once does not always replace them all: behind `\r\r\n` a new
`\r\n` appears.  The texts that stay as they are, also when they are replaced twice over, are those
in which no carriage return stands before a line feed.
-/

/-- The line end that is replaced. -/
def wideEnd : List Char := ['\r', '\n']

theorem length_toLineFeeds_le (s : List Char) : (toLineFeeds s).length ≤ s.length := by
  fun_induction toLineFeeds s with
  | case1 => exact Nat.le_refl _
  | case2 rest ih => exact Nat.succ_le_succ (Nat.le_succ_of_le ih)
  | case3 c rest _ ih => exact Nat.succ_le_succ ih

/-- A replacement leaves the length alone only if there is nothing to replace. -/
theorem length_toLineFeeds_lt_iff (s : List Char) :
    (toLineFeeds s).length < s.length ↔ wideEnd <:+: s := by
  fun_induction toLineFeeds s with
  | case1 => simp [wideEnd]
  | case2 rest ih =>
    have hle := length_toLineFeeds_le rest
    refine iff_of_true ?_ ⟨[], rest, rfl⟩
    rw [List.length_cons, List.length_cons, List.length_cons]
    omega
  | case3 c rest hno ih =>
    rw [List.length_cons, List.length_cons, Nat.add_lt_add_iff_right, ih, List.infix_cons_iff]
    refine ⟨Or.inr, fun h ↦ h.resolve_left ?_⟩
    rintro ⟨t, ht⟩
    obtain ⟨hc, hrest⟩ := List.cons.inj ht
    exact hno t hc.symm hrest.symm

/-- **A text is its own replacement if it has nothing to replace.** -/
theorem toLineFeeds_eq_self_iff (s : List Char) : toLineFeeds s = s ↔ ¬ wideEnd <:+: s := by
  refine ⟨fun h hend ↦ ?_, fun h ↦ ?_⟩
  · have hlt := (length_toLineFeeds_lt_iff s).2 hend
    rw [h] at hlt
    exact Nat.lt_irrefl _ hlt
  · fun_induction toLineFeeds s with
    | case1 => rfl
    | case2 rest ih => exact absurd ⟨[], rest, rfl⟩ h
    | case3 c rest _ ih => rw [ih fun hend ↦ h (List.infix_cons hend)]

/-- **A text survives two replacements if it has nothing to replace.** -/
theorem toLineFeeds_toLineFeeds_eq_self_iff (s : List Char) :
    toLineFeeds (toLineFeeds s) = s ↔ ¬ wideEnd <:+: s := by
  refine ⟨fun h hend ↦ ?_, fun h ↦ ?_⟩
  · have hlt := (length_toLineFeeds_lt_iff s).2 hend
    have hle := length_toLineFeeds_le (toLineFeeds s)
    rw [h] at hle
    omega
  · rw [(toLineFeeds_eq_self_iff s).2 h, (toLineFeeds_eq_self_iff s).2 h]

theorem toList_withLineFeeds (s : String) : (withLineFeeds s).toList = toLineFeeds s.toList := by
  rw [withLineFeeds, String.toList_ofList]

/-! ## Pieces between separators -/

theorem isPrefix_of_splitOn {separator : Char} {s piece : List Char} {more : List (List Char)}
    (h : splitOn separator s = piece :: more) : piece <+: s := by
  induction s generalizing piece more with
  | nil => exact (List.cons.inj h).1 ▸ List.nil_prefix
  | cons c rest ih =>
    rw [splitOn] at h
    split at h
    · exact (List.cons.inj h).1 ▸ List.nil_prefix
    · cases hrest : splitOn separator rest with
      | nil => exact absurd hrest (splitOn_ne_nil _ _)
      | cons first others =>
        rw [hrest] at h
        exact (List.cons.inj h).1 ▸ List.cons_prefix_cons.2 ⟨rfl, ih hrest⟩

theorem isInfix_of_mem_splitOn {separator : Char} {s piece : List Char}
    (h : piece ∈ splitOn separator s) : piece <:+: s := by
  induction s with
  | nil => exact List.mem_singleton.1 h ▸ List.infix_rfl
  | cons c rest ih =>
    obtain ⟨first, others, hsplit⟩ := List.exists_cons_of_ne_nil (splitOn_ne_nil separator (c :: rest))
    rw [hsplit] at h
    rcases List.mem_cons.1 h with rfl | h
    · exact (isPrefix_of_splitOn hsplit).isInfix
    · refine List.infix_cons (ih ?_)
      rw [splitOn] at hsplit
      split at hsplit
      · exact (List.cons.inj hsplit).2 ▸ h
      · cases hrest : splitOn separator rest with
        | nil => exact absurd hrest (splitOn_ne_nil _ _)
        | cons piece' more =>
          rw [hrest] at hsplit
          exact List.mem_cons_of_mem _ ((List.cons.inj hsplit).2 ▸ h)

end Text
end FirmwareLane
