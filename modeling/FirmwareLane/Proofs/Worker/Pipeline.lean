import FirmwareLane.Worker.Pipeline
import Mathlib.Logic.Basic

/-!
# Where a pipeline stops

Nothing is known about what a command line does, so what a pipeline does is said relative to the
machine: `effect` is what one operation does to the files, `after` what operations do that are all
carried out, and `reportIn` the report on an operation that is begun among given files.  None of the
three knows about stopping.  That is the matter of `StopsAt`: with it, a number tells the operations
that were carried out from those that were skipped, in the reports, in the diagnostics and in the
files alike.

A worker waits for the output of a command line until a point in time that it computes from the
timeout.  A timeout of ages leads past the last point in time that a clock can tell, and then there
is no outcome at all: `Told` says where this does not happen.

## What is here

* `carryOut_of_told` and `carryOut_of_not_told` say what one operation does.
* `StopsAt.stop` and `StopsAt.step` put an operation in front of a pipeline.
* `execute_stops_at` is the statement about all pipelines and machines.
-/

set_option autoImplicit false
namespace FirmwareLane
namespace Pipeline

open Text.Numeral (decimal)

/-! ## One operation -/

/-- What an operation does to the files when it is carried out. -/
def effect (m : Machine) (p : Pipeline) (index : Nat) : Operation → Files → Files
  | .reset, fs => resetModes p.root fs
  | .shell _ commandLine, fs => (m.run index p.root p.timeout commandLine fs).2

/-- The report on an operation that is begun among some files. -/
def reportIn (m : Machine) (p : Pipeline) (index : Nat) (operation : Operation) (fs : Files) :
    Report :=
  match operation with
  | .reset => resetReport index (m.time index)
  | .shell _ commandLine => reportOf index operation (m.run index p.root p.timeout commandLine fs).1

/-- The clock can tell how long the output of an operation is waited for: that of a command line
that was started, until the timeout is over and for a second at least. -/
def Told (m : Machine) (p : Pipeline) (index : Nat) (operation : Operation) (fs : Files) : Prop :=
  ∀ interpreter commandLine, operation = .shell interpreter commandLine →
    let r := (m.run index p.root p.timeout commandLine fs).1
    isDrained r.ending = true →
      (r.clock + max (p.timeout - r.elapsed) drainGrace) / 1000 < Nat.pow 2 63

theorem failed_or_timedOut {ending : Ending} (h : status ending ≠ .succeeded) :
    status ending = .failed ∨ status ending = .timedOut := by
  cases ending with
  | exited code =>
    by_cases hcode : code = 0
    · exact absurd (if_pos hcode) h
    · exact .inl (if_neg hcode)
  | timedOut => exact .inr rfl
  | killed => exact .inl rfl
  | unstartable _ => exact .inl rfl
  | lost _ => exact .inl rfl

section Operation

variable {m : Machine} {p : Pipeline} {index : Nat} {operation : Operation} {fs : Files}

theorem carryOut_of_told (h : Told m p index operation fs) :
    carryOut m p index operation fs =
      (.ok (reportIn m p index operation fs), effect m p index operation fs) := by
  cases operation with
  | reset => rfl
  | shell interpreter commandLine =>
    have hdeadline := h interpreter commandLine rfl
    simp only [carryOut, reportIn, effect]
    split
    · rename_i hdrained
      rw [deadline, if_pos (hdeadline hdrained)]
    · rfl

theorem carryOut_of_not_told (h : ¬ Told m p index operation fs) :
    carryOut m p index operation fs = (.error .clockOverflow, effect m p index operation fs) := by
  simp only [Told, not_forall] at h
  obtain ⟨interpreter, commandLine, rfl, hdrained, hlate⟩ := h
  simp only [carryOut, effect]
  rw [if_pos hdrained, deadline, if_neg hlate]

@[simp]
theorem index_reportIn : (reportIn m p index operation fs).index = index := by
  cases operation <;> rfl

@[simp]
theorem operation_reportIn : (reportIn m p index operation fs).operation = operation := by
  cases operation <;> rfl

/-- An operation that does not succeed is a command line, and failed or ran for too long. -/
theorem exists_shell_of_not_succeeded
    (h : (reportIn m p index operation fs).status ≠ .succeeded) :
    ((reportIn m p index operation fs).status = .failed ∨
      (reportIn m p index operation fs).status = .timedOut) ∧
    ∃ interpreter commandLine, operation = .shell interpreter commandLine := by
  cases operation with
  | reset => exact absurd rfl h
  | shell interpreter commandLine => exact ⟨failed_or_timedOut h, interpreter, commandLine, rfl⟩

/-- The description of a failing command line begins with its number and with itself. -/
theorem exists_describeFailure {interpreter : Interpreter} {commandLine : String} (timeout : Nat)
    (r : Report) (h : r.operation = .shell interpreter commandLine) :
    ∃ rest, describeFailure timeout r =
      "operation #" ++ decimal r.index ++ " \x60" ++ commandLine ++ "\x60" ++ rest := by
  have hsubject :
      subject r = "operation #" ++ decimal r.index ++ " \x60" ++ commandLine ++ "\x60" := by
    simp only [subject, h, Operation.commandLine?, String.append_assoc]
  simp only [describeFailure, hsubject]
  split
  · exact ⟨_, rfl⟩
  · exact ⟨_, by simp only [String.append_assoc]; rfl⟩

end Operation

/-! ## Operations in order -/

/-- The files after operations that are all carried out, numbered from an index on. -/
def after (m : Machine) (p : Pipeline) (first : Nat) : List Operation → Files → Files
  | [], fs => fs
  | operation :: rest, fs => after m p (first + 1) rest (effect m p first operation fs)

/-- The report on the operation at a place, when those before it were carried out. -/
def reportAt (m : Machine) (p : Pipeline) (first : Nat) (operations : List Operation) (fs : Files)
    (i : Nat) (operation : Operation) : Report :=
  reportIn m p (first + i) operation (after m p first (operations.take i) fs)

/-- The operations before a place all succeed. -/
def Reached (m : Machine) (p : Pipeline) (first : Nat) (operations : List Operation) (fs : Files)
    (k : Nat) : Prop :=
  ∀ i operation, i < k → operations[i]? = some operation →
    (reportAt m p first operations fs i operation).status = .succeeded

/-- The clock can tell the end of every wait that the pipeline comes to. -/
def Tellable (m : Machine) (p : Pipeline) (first : Nat) (operations : List Operation)
    (fs : Files) : Prop :=
  ∀ i operation, operations[i]? = some operation → Reached m p first operations fs i →
    Told m p (first + i) operation (after m p first (operations.take i) fs)

/-- What a pipeline comes to whose operations, numbered from `first` on, succeed before the place
`k` and not there. -/
structure StopsAt (m : Machine) (p : Pipeline) (first : Nat) (operations : List Operation)
    (fs : Files) (k : Nat) (outcome : Outcome) (fs' : Files) : Prop where
  le_length : k ≤ operations.length
  length_reports : outcome.reports.length = operations.length
  /-- Every report belongs to the operation at its place. -/
  aligned : ∀ i r, outcome.reports[i]? = some r →
    r.index = first + i ∧ operations[i]? = some r.operation
  /-- Operations up to the place were carried out, and are reported so. -/
  begun : ∀ i operation, i ≤ k → operations[i]? = some operation →
    outcome.reports[i]? = some (reportAt m p first operations fs i operation)
  succeeds : ∀ i r, i < k → outcome.reports[i]? = some r → r.status = .succeeded
  /-- The operation at the place is a command line, and the diagnostics begin with it. -/
  fails : ∀ r, outcome.reports[k]? = some r →
    (r.status = .failed ∨ r.status = .timedOut) ∧
    ∃ interpreter commandLine rest, r.operation = .shell interpreter commandLine ∧
      outcome.diagnostics = some
        ("operation #" ++ decimal (first + k) ++ " \x60" ++ commandLine ++ "\x60" ++ rest)
  skips : ∀ i r, k < i → outcome.reports[i]? = some r →
    r.status = .skipped ∧ r.exitCode = none ∧ r.stdout = "" ∧ r.stderr = "" ∧ r.startedAt = none
  succeeded_iff : outcome.succeeded = true ↔ k = operations.length
  diagnostics_iff : outcome.diagnostics = none ↔ k = operations.length
  /-- Operations behind the place did nothing to the files. -/
  files : fs' = after m p first (operations.take (k + 1)) fs

section Operations

variable {m : Machine} {p : Pipeline} {first : Nat} {operation : Operation}
  {rest : List Operation} {fs fs' : Files} {outcome : Outcome}

/-- Places move by one when an operation is put in front. -/
theorem reportAt_succ {i : Nat} {other : Operation} :
    reportAt m p first (operation :: rest) fs (i + 1) other =
      reportAt m p (first + 1) rest (effect m p first operation fs) i other := by
  rw [reportAt, reportAt, List.take_succ_cons, after, Nat.add_right_comm, Nat.add_assoc]

theorem reached_zero {operations : List Operation} : Reached m p first operations fs 0 :=
  fun _ _ hi ↦ absurd hi (Nat.not_lt_zero _)

theorem reached_succ {i : Nat} (h : (reportIn m p first operation fs).status = .succeeded) :
    Reached m p first (operation :: rest) fs (i + 1) ↔
      Reached m p (first + 1) rest (effect m p first operation fs) i := by
  constructor
  · intro hreached j other hj hother
    rw [← reportAt_succ]
    exact hreached (j + 1) other (Nat.succ_lt_succ hj) hother
  · intro hreached j other hj hother
    cases j with
    | zero => cases hother; exact h
    | succ j =>
      rw [reportAt_succ]
      exact hreached j other (Nat.lt_of_succ_lt_succ hj) hother

theorem not_reached_succ {i : Nat} (h : (reportIn m p first operation fs).status ≠ .succeeded) :
    ¬ Reached m p first (operation :: rest) fs (i + 1) :=
  fun hreached ↦ h (hreached 0 operation (Nat.succ_pos i) rfl)

/-- A pipeline can be told if its first operation can, and the rest of it can should that operation
succeed. -/
theorem tellable_cons :
    Tellable m p first (operation :: rest) fs ↔
      Told m p first operation fs ∧
      ((reportIn m p first operation fs).status = .succeeded →
        Tellable m p (first + 1) rest (effect m p first operation fs)) := by
  constructor
  · intro h
    refine ⟨h 0 operation rfl reached_zero, fun hsucceeded i other hother hreached ↦ ?_⟩
    have htold := h (i + 1) other hother ((reached_succ hsucceeded).2 hreached)
    rwa [List.take_succ_cons, after, ← Nat.add_assoc, Nat.add_right_comm] at htold
  · rintro ⟨htold, hrest⟩ i other hother hreached
    cases i with
    | zero => cases hother; exact htold
    | succ i =>
      by_cases hsucceeded : (reportIn m p first operation fs).status = .succeeded
      · rw [List.take_succ_cons, after, ← Nat.add_assoc, Nat.add_right_comm]
        exact hrest hsucceeded i other hother ((reached_succ hsucceeded).1 hreached)
      · exact absurd hreached (not_reached_succ hsucceeded)

/-! ### Skipped operations -/

theorem length_skipAll (index : Nat) (operations : List Operation) :
    (skipAll index operations).length = operations.length := by
  induction operations generalizing index with
  | nil => rfl
  | cons _ _ ih => exact congrArg (· + 1) (ih (index + 1))

theorem getElem?_skipAll (index : Nat) (operations : List Operation) (i : Nat) :
    (skipAll index operations)[i]? = operations[i]?.map (.skipped (index + i)) := by
  induction operations generalizing index i with
  | nil => rfl
  | cons _ rest ih =>
    cases i with
    | zero => rfl
    | succ i =>
      rw [skipAll, List.getElem?_cons_succ, List.getElem?_cons_succ, ih, Nat.add_right_comm,
        Nat.add_assoc]

/-! ### Putting an operation in front -/

theorem stopsAt_nil : StopsAt m p first [] fs 0 ⟨none, []⟩ fs where
  le_length := Nat.le_refl 0
  length_reports := rfl
  aligned _ _ h := nomatch h
  begun _ _ _ h := nomatch h
  succeeds _ _ _ h := nomatch h
  fails _ h := nomatch h
  skips _ _ _ h := nomatch h
  succeeded_iff := ⟨fun _ ↦ rfl, fun _ ↦ rfl⟩
  diagnostics_iff := ⟨fun _ ↦ rfl, fun _ ↦ rfl⟩
  files := rfl

/-- **A failing operation stops the pipeline**: those behind it are skipped. -/
theorem StopsAt.stop (h : (reportIn m p first operation fs).status ≠ .succeeded) :
    StopsAt m p first (operation :: rest) fs 0
      ⟨some (describeFailure p.timeout (reportIn m p first operation fs)),
        reportIn m p first operation fs :: skipAll (first + 1) rest⟩
      (effect m p first operation fs) where
  le_length := Nat.zero_le _
  length_reports := congrArg (· + 1) (length_skipAll (first + 1) rest)
  aligned i r hr := by
    cases i with
    | zero => cases hr; exact ⟨index_reportIn, congrArg some operation_reportIn.symm⟩
    | succ i =>
      rw [List.getElem?_cons_succ, getElem?_skipAll] at hr
      obtain ⟨other, hother, rfl⟩ := Option.map_eq_some_iff.1 hr
      exact ⟨Nat.add_right_comm first 1 i |>.trans (Nat.add_assoc first i 1), hother⟩
  begun i other hi hother := by
    obtain rfl := Nat.le_zero.1 hi
    cases hother
    rfl
  succeeds _ _ hi := absurd hi (Nat.not_lt_zero _)
  fails r hr := by
    cases hr
    obtain ⟨hstatus, interpreter, commandLine, rfl⟩ := exists_shell_of_not_succeeded h
    obtain ⟨text, htext⟩ := exists_describeFailure p.timeout
      (reportIn m p first (.shell interpreter commandLine) fs) operation_reportIn
    rw [index_reportIn] at htext
    exact ⟨hstatus, interpreter, commandLine, text, operation_reportIn, congrArg some htext⟩
  skips i r hi hr := by
    obtain ⟨i, rfl⟩ := Nat.exists_eq_succ_of_ne_zero (Nat.pos_iff_ne_zero.1 hi)
    rw [List.getElem?_cons_succ, getElem?_skipAll] at hr
    obtain ⟨other, -, rfl⟩ := Option.map_eq_some_iff.1 hr
    exact ⟨rfl, rfl, rfl, rfl, rfl⟩
  succeeded_iff := ⟨(nomatch ·), (nomatch ·)⟩
  diagnostics_iff := ⟨(nomatch ·), (nomatch ·)⟩
  files := rfl

/-- **An operation that succeeds moves the place by one.** -/
theorem StopsAt.step {k : Nat} (h : (reportIn m p first operation fs).status = .succeeded)
    (hrest : StopsAt m p (first + 1) rest (effect m p first operation fs) k outcome fs') :
    StopsAt m p first (operation :: rest) fs (k + 1)
      { outcome with reports := reportIn m p first operation fs :: outcome.reports } fs' where
  le_length := Nat.succ_le_succ hrest.le_length
  length_reports := congrArg (· + 1) hrest.length_reports
  aligned i r hr := by
    cases i with
    | zero => cases hr; exact ⟨index_reportIn, congrArg some operation_reportIn.symm⟩
    | succ i =>
      obtain ⟨hindex, hoperation⟩ := hrest.aligned i r hr
      exact ⟨by omega, hoperation⟩
  begun i other hi hother := by
    cases i with
    | zero => cases hother; rfl
    | succ i =>
      rw [reportAt_succ]
      exact hrest.begun i other (Nat.le_of_succ_le_succ hi) hother
  succeeds i r hi hr := by
    cases i with
    | zero => cases hr; exact h
    | succ i => exact hrest.succeeds i r (Nat.lt_of_succ_lt_succ hi) hr
  fails r hr := by
    rw [show first + (k + 1) = first + 1 + k by omega]
    exact hrest.fails r hr
  skips i r hi hr := by
    cases i with
    | zero => exact absurd hi (Nat.not_lt_zero _)
    | succ i => exact hrest.skips i r (Nat.lt_of_succ_lt_succ hi) hr
  succeeded_iff := hrest.succeeded_iff.trans Nat.succ_inj.symm
  diagnostics_iff := hrest.diagnostics_iff.trans Nat.succ_inj.symm
  files := hrest.files

/-! ## Whole pipelines -/

theorem executeFrom_stopsAt {operations : List Operation}
    (h : Tellable m p first operations fs) :
    ∃ k outcome fs', executeFrom m p first operations fs = (.ok outcome, fs') ∧
      StopsAt m p first operations fs k outcome fs' := by
  induction operations generalizing first fs with
  | nil => exact ⟨0, ⟨none, []⟩, fs, rfl, stopsAt_nil⟩
  | cons operation rest ih =>
    obtain ⟨htold, hrest⟩ := tellable_cons.1 h
    simp only [executeFrom, carryOut_of_told htold]
    by_cases hsucceeded : (reportIn m p first operation fs).status = .succeeded
    · obtain ⟨k, outcome, fs', hexecute, hstops⟩ := ih (hrest hsucceeded)
      refine ⟨k + 1, _, fs', ?_, hstops.step hsucceeded⟩
      rw [if_pos hsucceeded, hexecute]
    · refine ⟨0, _, _, ?_, StopsAt.stop hsucceeded⟩
      rw [if_neg hsucceeded]

theorem executeFrom_of_not_tellable {operations : List Operation}
    (h : ¬ Tellable m p first operations fs) :
    (executeFrom m p first operations fs).1 = .error .clockOverflow := by
  induction operations generalizing first fs with
  | nil => exact absurd (fun _ _ h ↦ nomatch h) h
  | cons operation rest ih =>
    by_cases htold : Told m p first operation fs
    · simp only [tellable_cons, htold, true_and, not_forall] at h
      obtain ⟨hsucceeded, hrest⟩ := h
      have hexecute := ih hrest
      simp only [executeFrom, carryOut_of_told htold]
      rw [if_pos hsucceeded]
      generalize executeFrom m p (first + 1) rest (effect m p first operation fs) = result
        at hexecute ⊢
      obtain ⟨result, files⟩ := result
      obtain rfl : result = .error .clockOverflow := hexecute
      rfl
    · simp only [executeFrom, carryOut_of_not_told htold]

end Operations

/-- **A pipeline stops at the first operation that does not succeed**, and only there: the reports,
the diagnostics and the files all tell of the same place.  A pipeline that comes to a wait whose end
the clock cannot tell has no outcome. -/
theorem execute_stops_at (m : Machine) (p : Pipeline) (operations : List Operation) (fs : Files) :
    (Tellable m p 0 operations fs →
      ∃ k outcome fs', execute m p operations fs = (.ok outcome, fs') ∧
        StopsAt m p 0 operations fs k outcome fs') ∧
    (¬ Tellable m p 0 operations fs →
      (execute m p operations fs).1 = .error .clockOverflow) :=
  ⟨executeFrom_stopsAt, executeFrom_of_not_tellable⟩

/-- A machine on which every command line but the operation with number two does well. -/
def flawed : Machine where
  run index _ _ commandLine fs :=
    (⟨.exited (if index = 2 then 3 else 0), [], [98, 97, 100], ⟨0, 0⟩, 0, 0⟩,
      { fs with here := fs.here ++ [commandLine] })
  time _ := ⟨0, 0⟩
  nanoseconds _ := 0

/-- Operations that build, check and pack something. -/
def plan : List Operation :=
  [.shell .posix "build", .reset, .shell .posix "check", .shell .native "pack"]

/-- A check that fails stops a pipeline, and one that may take ages crashes it. -/
theorem execute_stops_at_of_failing_check :
    Tellable flawed ⟨"w", 5000⟩ 0 plan default ∧
    (∃ k outcome fs', execute flawed ⟨"w", 5000⟩ plan default = (.ok outcome, fs') ∧
      StopsAt flawed ⟨"w", 5000⟩ 0 plan default k outcome fs') ∧
    ¬ Tellable flawed ⟨"w", 1000 * Nat.pow 2 63⟩ 0 plan default ∧
    (execute flawed ⟨"w", 1000 * Nat.pow 2 63⟩ plan default).1 = .error .clockOverflow := by
  have htold : Tellable flawed ⟨"w", 5000⟩ 0 plan default := by
    intro i operation _ _ interpreter commandLine _ _ _
    show (0 + max (5000 - 0) 1000) / 1000 < Nat.pow 2 63
    decide
  have hlate : ¬ Tellable flawed ⟨"w", 1000 * Nat.pow 2 63⟩ 0 plan default := by
    intro h
    have hwait := h 0 _ rfl reached_zero .posix "build" rfl rfl
    revert hwait
    show ¬ (0 + max (1000 * Nat.pow 2 63 - 0) 1000) / 1000 < Nat.pow 2 63
    decide
  exact ⟨htold, (execute_stops_at _ _ _ _).1 htold, hlate, (execute_stops_at _ _ _ _).2 hlate⟩

end Pipeline
end FirmwareLane
