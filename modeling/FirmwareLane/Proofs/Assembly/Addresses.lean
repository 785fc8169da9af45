import FirmwareLane.Proofs.Assembly.Joining
import FirmwareLane.Proofs.Text.Utf8

/-!
# Addresses that do not wrap around

An address counts modulo `2 ^ 32`, and nothing in the layout of a program looks whether it wrapped
around.  It does not have to, as long as the source text is shorter than `2 ^ 31 - 1` bytes: no
statement takes more words than half the characters of its line, if the line end is counted among
them.  This does not rest on what the operands of a statement are, for most of them are not looked
at before all addresses are given; only the two words that may load a constant rest on there being
operands at all.

## What is here

* `Progress` is how far the layout has come between two lines, and `Progress.next` lays out one line
  more.  `layout_after` says that all lines together give the layout that is computed.
* `countWords` counts the words on lines, without any address.
* `Progress.IsExact` compares both: `IsExact.next` keeps it over a line, and `isExact_of_after` has
  it after any number of lines.
* `two_mul_countWords_le_of_isPrefix` bounds the words by the bytes of the source text.
* `addresses_exact` puts the two together, and `addresses_wrap` shows that one byte more is too much.
-/

set_option autoImplicit false
namespace FirmwareLane
namespace Assembly

open Outcome

/-! ## One line after the other -/

/-- How far a program has been laid out: the number of the next line, the address of the next
statement, and the labels and the statements so far. -/
structure Progress where
  line : Nat
  address : Word
  labels : Labels
  placed : List Placed

namespace Progress

/-- Nothing has been laid out. -/
def start : Progress := ⟨1, 0, [], []⟩

/-- One line more has been laid out. -/
def next (p : Progress) (text : List Char) : Except Failure Progress := do
  let read ← onLine p.line (Line.read text)
  let labels ← onLine p.line (declare p.address p.labels read.labels)
  match read.instruction with
  | none => return ⟨p.line + 1, p.address, labels, p.placed⟩
  | some written =>
    let statement := written.statement p.line
    let size ← onLine p.line statement.size
    return ⟨p.line + 1, p.address + BitVec.ofNat 32 (4 * size), labels,
      p.placed ++ [⟨p.address, statement⟩]⟩

/-- The progress on lines. -/
def after (lines : List (List Char)) : Except Failure Progress := lines.foldlM next start

/-- What has been laid out. -/
def layout (p : Progress) : Layout := ⟨p.placed, p.labels⟩

/-- What lines lay out goes behind what there is. -/
theorem layout_foldlM (p : Progress) (lines : List (List Char)) :
    (lines.foldlM next p).map layout =
      (Layout.ofLines p.line p.address p.labels lines).map p.layout.append := by
  induction lines generalizing p with
  | nil =>
    have hnil : p.layout = p.layout.append ⟨[], p.labels⟩ :=
      congrArg (Layout.mk · p.labels) (List.append_nil p.placed).symm
    exact congrArg Except.ok hnil
  | cons text rest ih =>
    rw [List.foldlM_cons, next, Layout.ofLines]
    cases onLine p.line (Line.read text) with
    | error failure => rfl
    | ok read =>
      simp only [ok_bind]
      cases onLine p.line (declare p.address p.labels read.labels) with
      | error failure => rfl
      | ok labels =>
        simp only [ok_bind]
        cases read.instruction with
        | none => exact ih ⟨p.line + 1, p.address, labels, p.placed⟩
        | some written =>
          dsimp only
          cases onLine p.line (written.statement p.line).size with
          | error failure => rfl
          | ok size =>
            simp only [ok_bind, pure_bind, ih]
            cases Layout.ofLines (p.line + 1) (p.address + BitVec.ofNat 32 (4 * size)) labels rest with
            | error failure => rfl
            | ok behind =>
              simp only [ok_bind, Except.map, layout, Layout.append, List.append_assoc]
              rfl

/-- **The layout of a source text is what its lines lay out one after the other.** -/
theorem layout_after (source : String) :
    (after (Text.lines source.toList)).map layout = Layout.ofSource source := by
  have hbehind := layout_foldlM start (Text.lines source.toList)
  refine hbehind.trans ?_
  change (Layout.ofSource source).map start.layout.append = Layout.ofSource source
  cases Layout.ofSource source <;> rfl

end Progress

/-! ## Counting words -/

/-- The number of words that are counted for a line. -/
def wordsOn (text : List Char) : Nat :=
  match statementOn text 0 with
  | some statement => statement.size.toOption.getD 0
  | none => 0

/-- The number of words that are counted for lines. -/
def countWords (lines : List (List Char)) : Nat := (lines.map wordsOn).sum

theorem wordsOn_of_blank {text : List Char} {names : List String}
    (h : Line.read text = .ok ⟨names, none⟩) : wordsOn text = 0 := by
  rw [wordsOn, statementOn, h]

/-- The words of a statement are counted, whatever the number of its line is. -/
theorem wordsOn_of_statement {text : List Char} {names : List String} {written : Written}
    {line size : Nat} (h : Line.read text = .ok ⟨names, some written⟩)
    (hsize : (written.statement line).size = .ok size) : wordsOn text = size := by
  have hzero : (written.statement 0).size = .ok size := hsize
  rw [wordsOn, statementOn, h]
  dsimp only
  rw [hzero]
  rfl

theorem countWords_append (lines more : List (List Char)) :
    countWords (lines ++ more) = countWords lines + countWords more := by
  rw [countWords, List.map_append, List.sum_append, countWords, countWords]

theorem countWords_concat (lines : List (List Char)) (text : List Char) :
    countWords (lines ++ [text]) = countWords lines + wordsOn text := countWords_append lines [text]

namespace Progress

variable {p q : Progress} {lines : List (List Char)} {text : List Char}

/-- A line that is laid out declares its labels at the address of its statement, and its words come
between that address and the next one. -/
theorem eq_of_next (h : p.next text = .ok q) :
    declare p.address p.labels (labelsOn text) = .ok q.labels ∧
      q.address = p.address + BitVec.ofNat 32 (4 * wordsOn text) := by
  obtain ⟨⟨names, instruction⟩, hread, h⟩ := bind_eq_ok.1 h
  obtain ⟨labels, hdeclare, h⟩ := bind_eq_ok.1 h
  rw [onLine_eq_ok] at hread hdeclare
  have hon : labelsOn text = names := by rw [labelsOn, hread]
  rw [hon]
  cases instruction with
  | none =>
    obtain rfl := pure_eq_ok.1 h
    refine ⟨hdeclare, ?_⟩
    rw [wordsOn_of_blank hread]
    exact (BitVec.add_zero _).symm
  | some written =>
    obtain ⟨size, hsize, h⟩ := bind_eq_ok.1 h
    obtain rfl := pure_eq_ok.1 h
    rw [wordsOn_of_statement hread (onLine_eq_ok.1 hsize)]
    exact ⟨hdeclare, rfl⟩

/-! ## Exact addresses -/

/-- A label stands on one of the lines, and an address counts the words above that line. -/
def MarksLine (lines : List (List Char)) (name : String) (a : Word) : Prop :=
  ∃ above text below, lines = above ++ text :: below ∧ name ∈ labelsOn text ∧
    a.toNat = 4 * countWords above

/-- The progress on lines counts their words: the address does not wrap around, and the labels are
those on the lines, each at the address that counts the words above it. -/
structure IsExact (lines : List (List Char)) (p : Progress) : Prop where
  address : p.address.toNat = 4 * countWords lines
  lookup : ∀ name a, p.labels.lookup name = some a ↔ MarksLine lines name a

theorem isExact_start : IsExact [] start where
  address := rfl
  lookup := by simp [start, MarksLine]

/-- The labels on one line more are those on the line, and those on the lines above it. -/
theorem marksLine_concat {name : String} {a : Word} :
    MarksLine (lines ++ [text]) name a ↔
      MarksLine lines name a ∨ name ∈ labelsOn text ∧ a.toNat = 4 * countWords lines := by
  constructor
  · rintro ⟨above, marked, below, heq, hmarked⟩
    rcases List.eq_nil_or_concat' below with rfl | ⟨front, last, rfl⟩
    · obtain ⟨rfl, hlast⟩ := List.append_inj' heq rfl
      obtain rfl := List.singleton_inj.1 hlast
      exact .inr hmarked
    · rw [← List.cons_append, ← List.append_assoc] at heq
      exact .inl ⟨above, marked, front, (List.append_inj' heq rfl).1, hmarked⟩
  · rintro (⟨above, marked, below, rfl, hmarked⟩ | hmarked)
    · exact ⟨above, marked, below ++ [text], by rw [List.append_assoc, List.cons_append], hmarked⟩
    · exact ⟨lines, text, [], rfl, hmarked⟩

/-- The labels on a line that have been declared so far mark it. -/
theorem IsExact.lookup_declare (h : p.IsExact lines) {names : List String} {labels : Labels}
    (hdeclare : declare p.address p.labels names = .ok labels) (name : String) (a : Word) :
    labels.lookup name = some a ↔
      MarksLine lines name a ∨ name ∈ names ∧ a.toNat = 4 * countWords lines := by
  rw [Assembly.lookup_declare hdeclare, h.lookup, ← h.address, BitVec.toNat_inj]

/-- **A line keeps addresses exact**, as long as an address can count the words. -/
theorem IsExact.next (h : p.IsExact lines) (hnext : p.next text = .ok q)
    (hfew : 4 * countWords (lines ++ [text]) < 2 ^ 32) : q.IsExact (lines ++ [text]) := by
  obtain ⟨hdeclare, haddress⟩ := eq_of_next hnext
  rw [countWords_concat] at hfew
  constructor
  · have hadd := Laid.toNat_add_words p.address (wordsOn text) (by rw [h.address]; omega)
    rw [haddress, hadd, h.address, countWords_concat, Nat.mul_add]
  · intro name a
    rw [h.lookup_declare hdeclare, marksLine_concat]

/-- **The progress on lines is exact**, as long as an address can count their words. -/
theorem isExact_of_after (h : after lines = .ok p) (hfew : 4 * countWords lines < 2 ^ 32) :
    p.IsExact lines := by
  induction lines using List.reverseRecOn generalizing p with
  | nil => exact pure_eq_ok.1 h ▸ isExact_start
  | append_singleton front text ih =>
    rw [after, List.foldlM_append, bind_eq_ok] at h
    obtain ⟨q, hq, h⟩ := h
    rw [List.foldlM_cons, bind_eq_ok] at h
    obtain ⟨p', hp, h⟩ := h
    obtain rfl := pure_eq_ok.1 h
    have hfront := countWords_concat front text
    exact (ih hq (by omega)).next hp hfew

end Progress

/-! ## Words and bytes -/

/-- A statement has a character of its line for each one of its name, and one more if it has
operands. -/
theorem length_le_of_read {text : List Char} {names : List String} {written : Written}
    (h : Line.read text = .ok ⟨names, some written⟩) :
    written.name.toList.length ≤ text.length ∧
      (written.operands ≠ [] → written.name.toList.length + 1 ≤ text.length) := by
  obtain ⟨instruction, hread, hline⟩ := bind_eq_ok.1 h
  obtain ⟨-, rfl⟩ := Line.mk.inj (pure_eq_ok.1 hline)
  have hwithin : (peelLabels (Text.trim (uncommented text))).2 <:+: text :=
    ((peelLabels_isInfix _).trans (Text.trim_isInfix _)).trans (uncommented_isPrefix text).isInfix
  generalize (peelLabels (Text.trim (uncommented text))).2 = s at hread hwithin
  obtain ⟨hname, hoperands, -⟩ := texts_of_read? hread
  have hle := hwithin.length_le
  have hsplit := congrArg List.length
    (List.takeWhile_append_dropWhile (p := fun c ↦ !Text.isBlank c) (l := s))
  rw [List.length_append] at hsplit
  rw [hname, List.length_map]
  refine ⟨by omega, fun hne ↦ ?_⟩
  have hbehind : s.dropWhile (fun c ↦ !Text.isBlank c) ≠ [] := by
    intro hnil
    rw [hnil] at hoperands
    exact hne (List.map_eq_nil_iff.1 hoperands)
  have hpos := List.length_pos_iff.2 hbehind
  omega

/-- A constant is loaded by at most two instructions. -/
theorem length_loading_le (rd : Register) (constant : Word) :
    (Instruction.loading rd constant).length ≤ 2 := by
  rw [Instruction.loading]
  dsimp only
  split
  · exact Nat.le_succ 1
  · split <;> simp

/-- A statement takes one word, or it loads a constant and takes at most two. -/
theorem size_le {statement : Statement} {n : Nat} (h : statement.size = .ok n) :
    n = 1 ∨ statement.name = Mnemonic.loadName ∧ statement.operands ≠ [] ∧ n ≤ 2 := by
  rw [Statement.size] at h
  split at h
  · next hname =>
    obtain ⟨resolved, hresolved, hn⟩ := bind_eq_ok.1 h
    obtain ⟨⟨rd, constant⟩, hoperands, hloading⟩ := bind_eq_ok.1 hresolved
    obtain rfl := pure_eq_ok.1 hn
    obtain rfl := pure_eq_ok.1 hloading
    refine .inr ⟨hname, fun hnil ↦ ?_, length_loading_le rd constant⟩
    rw [hnil] at hoperands
    cases hoperands
  · split at h
    · exact .inl (Except.ok.inj h).symm
    · cases h

/-- **The words on a line are at most half its characters**, the line end included. -/
theorem two_mul_wordsOn_le (text : List Char) : 2 * wordsOn text ≤ text.length + 1 := by
  cases hread : Line.read text with
  | error fault =>
    rw [wordsOn, statementOn, hread]
    exact Nat.zero_le _
  | ok line =>
    obtain ⟨names, instruction⟩ := line
    cases instruction with
    | none =>
      rw [wordsOn_of_blank hread]
      exact Nat.zero_le _
    | some written =>
      obtain ⟨hname, hoperands⟩ := length_le_of_read hread
      cases hsize : (written.statement 0).size with
      | error fault =>
        rw [wordsOn, statementOn, hread]
        dsimp only
        rw [hsize]
        exact Nat.zero_le _
      | ok n =>
        rw [wordsOn_of_statement hread hsize]
        rcases size_le hsize with rfl | ⟨hload, hne, hn⟩
        · have hempty : ¬ Mnemonic.isKnown "" := by decide
          have hne : written.name ≠ "" := fun hnil ↦
            hempty (hnil ▸ Statement.isKnown_of_size hsize)
          have hpos := List.length_pos_iff.2 (mt String.toList_eq_nil_iff.1 hne)
          omega
        · have hlength : written.name.toList.length = 2 := congrArg (·.toList.length) hload
          have hmore := hoperands hne
          omega

theorem sum_length_lines_le (s : List Char) :
    ((Text.lines s).map fun line ↦ line.length + 1).sum ≤ s.length + 1 := by
  fun_induction Text.lines s with
  | case1 => exact Nat.zero_le _
  | case2 rest ih | case3 rest ih =>
    rw [List.map_cons, List.sum_cons, List.length_nil]
    simp only [List.length_cons]
    omega
  | case4 c rest _ _ hlines ih => simp
  | case5 c rest _ _ line more hlines ih =>
    rw [hlines, List.map_cons, List.sum_cons] at ih
    rw [List.map_cons, List.sum_cons, List.length_cons, List.length_cons]
    omega

theorem two_mul_countWords_le (lines : List (List Char)) :
    2 * countWords lines ≤ (lines.map fun line ↦ line.length + 1).sum := by
  induction lines with
  | nil => exact Nat.le_refl 0
  | cons text rest ih =>
    have hline := two_mul_wordsOn_le text
    rw [countWords] at ih ⊢
    rw [List.map_cons, List.sum_cons, List.map_cons, List.sum_cons]
    omega

/-- **The words on the lines of a source text are at most half its bytes**, and the end of its last
line. -/
theorem two_mul_countWords_le_of_isPrefix {source : String} {above : List (List Char)}
    (h : above <+: Text.lines source.toList) : 2 * countWords above ≤ source.utf8ByteSize + 1 := by
  obtain ⟨below, hlines⟩ := h
  have hwords := two_mul_countWords_le (above ++ below)
  have hsum := sum_length_lines_le source.toList
  have hbytes := Text.Utf8.length_le_utf8ByteSize source
  rw [countWords_append] at hwords
  rw [← hlines] at hsum
  omega

/-! ## Whole source texts -/

/-- **Addresses do not wrap around** while a source text of less than `2 ^ 31 - 1` bytes is laid out,
whether it is accepted or not.  Its layout is made line by line.  However many lines have been laid
out, the address is four times the number of words counted on them, which is below `2 ^ 32`, and the
labels are those on these lines, each at four times the number of words above it.  On the next line,
the labels declared so far have that address too, and the address behind its words does not wrap
around either. -/
theorem addresses_exact (source : String) (hsize : source.utf8ByteSize < 2 ^ 31 - 1) :
    (Progress.after (Text.lines source.toList)).map Progress.layout = Layout.ofSource source ∧
      ∀ above p, above <+: Text.lines source.toList → Progress.after above = .ok p →
        p.address.toNat = 4 * countWords above ∧ 4 * countWords above < 2 ^ 32 ∧
        (∀ name a, p.labels.lookup name = some a ↔ Progress.MarksLine above name a) ∧
        ∀ text, above ++ [text] <+: Text.lines source.toList →
          p.address.toNat + 4 * wordsOn text < 2 ^ 32 ∧
          ∀ names labels, names <+: labelsOn text → declare p.address p.labels names = .ok labels →
            ∀ name a, labels.lookup name = some a ↔
              Progress.MarksLine above name a ∨ name ∈ names ∧ a.toNat = 4 * countWords above := by
  refine ⟨Progress.layout_after source, fun above p habove hp ↦ ?_⟩
  have hfew := two_mul_countWords_le_of_isPrefix habove
  have hexact := Progress.isExact_of_after hp (by omega)
  refine ⟨hexact.address, by omega, hexact.lookup, fun text htext ↦ ⟨?_, ?_⟩⟩
  · have hmore := two_mul_countWords_le_of_isPrefix htext
    rw [countWords_concat] at hmore
    rw [hexact.address]
    omega
  · exact fun names labels _ hdeclare ↦ hexact.lookup_declare hdeclare

theorem addresses_exact_of_refused :
    Layout.ofSource "a: li a0, 4097\nb: j nowhere\nb: ret" = .error ⟨3, .duplicateLabel "b"⟩ ∧
      ("a: li a0, 4097\nb: j nowhere\nb: ret".utf8ByteSize < 2 ^ 31 - 1) ∧
      ∃ p, Progress.after ["a: li a0, 4097".toList, "b: j nowhere".toList] = .ok p ∧
        p.address.toNat = 4 * countWords ["a: li a0, 4097".toList, "b: j nowhere".toList] ∧
        p.address = 12 ∧ p.labels.lookup "b" = some 8 := by
  have hsize : "a: li a0, 4097\nb: j nowhere\nb: ret".utf8ByteSize < 2 ^ 31 - 1 := by decide +kernel
  have hafter : (Progress.after ["a: li a0, 4097".toList, "b: j nowhere".toList]).map
      (fun p ↦ (p.address, p.labels.lookup "b")) = .ok (12, some 8) := by decide +kernel
  have hlines : ["a: li a0, 4097".toList, "b: j nowhere".toList] <+:
      Text.lines "a: li a0, 4097\nb: j nowhere\nb: ret".toList := by decide +kernel
  obtain ⟨p, hp, heq⟩ := map_eq_ok.1 hafter
  obtain ⟨haddress, hlabel⟩ := Prod.mk.inj heq
  obtain ⟨hcount, -⟩ := (addresses_exact _ hsize).2 _ p hlines hp
  exact ⟨by decide +kernel, hsize, p, hp, hcount, haddress, hlabel⟩

/-! ## The shortest lines -/

/-- Jumps without a target, one on each line: one and so many more. -/
def jumps : Nat → List Char
  | 0 => ['j']
  | n + 1 => 'j' :: '\n' :: jumps n

theorem lines_jumps (n : Nat) : Text.lines (jumps n) = List.replicate (n + 1) ['j'] := by
  induction n with
  | zero => rfl
  | succ n ih =>
    have hline : Text.lines (jumps (n + 1)) = ['j'] :: Text.lines (jumps n) := by
      rw [jumps, Text.lines_of_no_end (by decide) (by rintro tail ⟨⟩) rfl]
    rw [hline, ih]
    rfl

theorem utf8ByteSize_jumps (n : Nat) : (String.ofList (jumps n)).utf8ByteSize = 2 * n + 1 := by
  rw [String.utf8ByteSize_ofList]
  induction n with
  | zero => rfl
  | succ n ih =>
    rw [jumps, String.utf8Len_cons, String.utf8Len_cons, ih]
    rfl

theorem wordsOn_jump : wordsOn ['j'] = 1 := by decide +kernel

theorem countWords_jumps (n : Nat) : countWords (List.replicate n ['j']) = n := by
  rw [countWords, List.map_replicate, List.sum_replicate_nat, wordsOn_jump, Nat.mul_one]

/-- Nothing is asked of a jump before it is resolved, so it is laid out wherever it stands. -/
theorem exists_next_jump (p : Progress) : ∃ q, p.next ['j'] = .ok q := by
  have hread : Line.read ['j'] = .ok ⟨[], some ⟨"j", []⟩⟩ := by decide +kernel
  have hload : "j" ≠ Mnemonic.loadName := by decide
  have hknown : Mnemonic.isKnown "j" = true := by decide
  have hsize : (Written.statement p.line ⟨"j", []⟩).size = .ok 1 :=
    (if_neg hload).trans (if_pos hknown)
  rw [Progress.next, hread]
  exact ⟨_, bind_eq_ok.2 ⟨_, rfl, bind_eq_ok.2 ⟨_, rfl, bind_eq_ok.2 ⟨_, onLine_eq_ok.2 hsize, rfl⟩⟩⟩⟩

theorem exists_after_jumps (n : Nat) :
    ∃ p, Progress.after (List.replicate n ['j']) = .ok p ∧ p.address = BitVec.ofNat 32 (4 * n) := by
  induction n with
  | zero => exact ⟨_, rfl, rfl⟩
  | succ n ih =>
    obtain ⟨p, hp, haddress⟩ := ih
    obtain ⟨q, hq⟩ := exists_next_jump p
    refine ⟨q, ?_, ?_⟩
    · rw [List.replicate_succ', Progress.after, List.foldlM_append]
      exact bind_eq_ok.2 ⟨p, hp, bind_eq_ok.2 ⟨q, hq, rfl⟩⟩
    · rw [(Progress.eq_of_next hq).2, haddress, wordsOn_jump, ← BitVec.ofNat_add, ← Nat.mul_add]

/-- **One byte more is too much**: with `2 ^ 31 - 1` bytes, `2 ^ 30` jumps are laid out, and the
address behind them is zero. -/
theorem addresses_wrap :
    ∃ source : String, source.utf8ByteSize = 2 ^ 31 - 1 ∧
      countWords (Text.lines source.toList) = 2 ^ 30 ∧
      ∃ p, Progress.after (Text.lines source.toList) = .ok p ∧ p.address = 0 := by
  obtain ⟨p, hp, haddress⟩ := exists_after_jumps (2 ^ 30)
  refine ⟨String.ofList (jumps (2 ^ 30 - 1)), utf8ByteSize_jumps _, ?_⟩
  rw [String.toList_ofList, lines_jumps]
  exact ⟨countWords_jumps _, p, hp, haddress⟩

end Assembly
end FirmwareLane
