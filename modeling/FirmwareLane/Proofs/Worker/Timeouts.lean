import FirmwareLane.Proofs.Toml.Integers
import FirmwareLane.Proofs.Worker.Answers

/-!
# Timeouts that a worker accepts

A worker waits for the output of a command line until the timeout of its configuration is over, and
for a second at least, and has to tell that moment on its clock.  A configuration is read from a
document, so the timeout has at most 63 bits (`operationTimeoutSeconds_of_read`); it must not be
zero, and nothing else is asked of it.

The clock has as many bits for its seconds, so there is no room for a long timeout and for what the
clock shows besides.  `Run.LeavesRoom` says when there is: how long after its beginning the clock may
have begun with the command line.  For the longest timeout that is a second (`leavesRoom_longest`).

`accepted_timeout_told_iff` puts this together, for the deadline, for an operation and for whatever
a worker is asked; `forall_accepted_told_iff` says what all accepted timeouts together ask of the
clock.
-/

set_option autoImplicit false
namespace FirmwareLane

/-! ## What is accepted -/

/-- **An accepted timeout is positive and has no sign bit.** -/
theorem WorkerConfig.operationTimeoutSeconds_of_read {document : String} {config : WorkerConfig}
    (h : read document = .ok config) :
    0 < config.operationTimeoutSeconds ∧ config.operationTimeoutSeconds < 2 ^ 63 := by
  obtain ⟨table, hparse, hdecode, hcheck⟩ := exists_of_read h
  constructor
  · obtain ⟨-, hchecks⟩ := Configuration.firstFault_eq_ok.1 hcheck
    have hzero := hchecks (config.operationTimeoutSeconds == 0, _) (.tail _ (.head _))
    exact Nat.pos_of_ne_zero (beq_eq_false_iff_ne.1 hzero)
  · obtain ⟨r, hparts, hfrom⟩ := exists_of_decode hdecode
    rcases Json.eq_or_exists_of_withDefault hfrom.operationTimeoutSeconds with heq | ⟨d, hd, hn⟩
    · rw [heq]
      decide
    · obtain ⟨v, hv, rfl⟩ := (Toml.isSigned_of_parse? hparse).exists_of_mem_documents hparts hd
      exact hv.naturalOf_lt hn

/-- The longest timeout that a document can ask for, in seconds. -/
def longestTimeout : Nat := 2 ^ 63 - 1

/-- The document that asks for it. -/
def longestDocument : String := "operation_timeout_seconds = 9223372036854775807"

/-- The configuration that it stands for. -/
def longestConfig : WorkerConfig :=
  { WorkerConfig.default with operationTimeoutSeconds := longestTimeout }

theorem timeout_longestConfig : longestConfig.operationTimeoutSeconds = longestTimeout := rfl

theorem read_longestDocument : WorkerConfig.read longestDocument = .ok longestConfig := by
  decide +kernel

/-! ## What the clock can tell -/

/-- The clock has room for a wait of so many seconds from the beginning of a command line on, and
for a second after its end: it began with the command line before the last so many seconds that it
can show. -/
def Run.LeavesRoom (r : Run) (seconds : Nat) : Prop :=
  r.clock < r.elapsed + (2 ^ 63 - seconds) * 1000 ∧ r.clock / 1000 + 1 < 2 ^ 63

instance (r : Run) (seconds : Nat) : Decidable (r.LeavesRoom seconds) :=
  inferInstanceAs (Decidable (_ ∧ _))

variable {r : Run} {seconds : Nat}

theorem leavesRoom_iff (h : seconds < 2 ^ 63) :
    r.LeavesRoom seconds ↔
      (r.clock + max (seconds * 1000 - r.elapsed) drainGrace) / 1000 < Nat.pow 2 63 := by
  have hpow : Nat.pow 2 63 = 2 ^ 63 := rfl
  rw [Run.LeavesRoom, drainGrace, hpow]
  omega

theorem exists_deadline_iff (h : seconds < 2 ^ 63) :
    (∃ moment, deadline (seconds * 1000) r = .ok moment) ↔ r.LeavesRoom seconds := by
  rw [leavesRoom_iff h]
  simp only [deadline]
  split
  · next hroom => exact iff_of_true ⟨_, rfl⟩ hroom
  · next hroom =>
    refine iff_of_false ?_ hroom
    rintro ⟨moment, h⟩
    cases h

/-- **For the longest timeout a command line has to begin in the first second of the clock.** -/
theorem leavesRoom_longest :
    r.LeavesRoom longestTimeout ↔ r.clock < r.elapsed + 1000 ∧ r.clock / 1000 + 1 < 2 ^ 63 := by
  rw [Run.LeavesRoom, longestTimeout]
  omega

theorem Run.LeavesRoom.of_le {longer : Nat} (h : r.LeavesRoom longer) (hle : seconds ≤ longer) :
    r.LeavesRoom seconds := by
  refine ⟨Nat.lt_of_lt_of_le h.1 ?_, h.2⟩
  omega

/-- **All accepted timeouts can be told only of a command line that begins in the first second of
the clock**, and ends before its last one. -/
theorem forall_accepted_told_iff (r : Run) :
    (∀ document config, WorkerConfig.read document = .ok config →
        ∃ moment, deadline (config.operationTimeoutSeconds * 1000) r = .ok moment) ↔
      r.clock < r.elapsed + 1000 ∧ r.clock / 1000 + 1 < 2 ^ 63 := by
  rw [← leavesRoom_longest]
  constructor
  · intro hall
    have hlongest : longestTimeout < 2 ^ 63 := by decide
    have hdeadline := hall longestDocument _ read_longestDocument
    rw [timeout_longestConfig] at hdeadline
    exact (exists_deadline_iff hlongest).1 hdeadline
  · intro hroom document config hread
    have hlt := (WorkerConfig.operationTimeoutSeconds_of_read hread).2
    exact (exists_deadline_iff hlt).2 (hroom.of_le (Nat.le_sub_one_of_lt hlt))

/-! ## Operations and requests -/

namespace Service

variable {m : Machine} {config : WorkerConfig} {request : Request} {host : Host} {root : String}
  {index : Nat} {operation : Operation} {fs : Files}

/-- The clock can tell the wait for an operation if that is no command line, or was not started, or
leaves room for the timeout. -/
theorem told_iff (h : config.operationTimeoutSeconds < 2 ^ 63) :
    Pipeline.Told m (pipelineIn config root) index operation fs ↔
      ∀ interpreter commandLine, operation = .shell interpreter commandLine →
        let r := (m.run index root (config.operationTimeoutSeconds * 1000) commandLine fs).1
        Pipeline.isDrained r.ending = true → r.LeavesRoom config.operationTimeoutSeconds := by
  simp only [leavesRoom_iff h]
  rfl

theorem carryOut_crashes_iff (h : config.operationTimeoutSeconds < 2 ^ 63)
    {interpreter : Interpreter} {commandLine : String} :
    ((pipelineIn config root).carryOut m index (.shell interpreter commandLine) fs).1 =
        .error .clockOverflow ↔
      let r := (m.run index root (config.operationTimeoutSeconds * 1000) commandLine fs).1
      Pipeline.isDrained r.ending = true ∧ ¬ r.LeavesRoom config.operationTimeoutSeconds := by
  rw [← Classical.not_imp]
  by_cases htold : Pipeline.Told m (pipelineIn config root) index (.shell interpreter commandLine) fs
  · rw [Pipeline.carryOut_of_told htold]
    exact iff_of_false nofun (not_not.2 ((told_iff h).1 htold interpreter commandLine rfl))
  · rw [Pipeline.carryOut_of_not_told htold]
    refine iff_of_true rfl fun hroom ↦ htold ((told_iff h).2 fun _ _ heq ↦ ?_)
    cases heq
    exact hroom

/-- No run is late if all command lines leave room for the timeout. -/
theorem not_late (h : config.operationTimeoutSeconds < 2 ^ 63)
    (hroom : ∀ index directory commandLine fs,
      (m.run index directory (config.operationTimeoutSeconds * 1000) commandLine fs).1.LeavesRoom
        config.operationTimeoutSeconds) : ¬ Late m config request host := by
  rintro ⟨payload, root, restored, before, -, hlate⟩
  exact hlate fun i operation _ _ ↦ (told_iff h).2 fun _ _ _ _ ↦ hroom _ _ _ _

/-- A worker answers whatever it is asked if no run is late. -/
theorem exists_respond (h : ∀ request, ¬ Late m config request host) (input : Text.Bytes)
    (broken : Option String) :
    ∃ response, (respond m config input broken host).1 = .ok response := by
  have hdispatch : ∀ request, ∃ result, (dispatch m config request host).1 = .ok result := by
    intro request
    rw [dispatch]
    split
    · exact ⟨_, rfl⟩
    split
    · rcases run_of_not_late (h request) with ⟨_, _, _, _, _, _, -, -, hrun⟩ | ⟨_, hrun, -⟩ <;>
        exact ⟨_, congrArg (Except.map payload) hrun⟩
    split <;> exact ⟨_, rfl⟩
  rw [respond]
  split
  · exact ⟨_, rfl⟩
  · next request hread =>
    split
    · exact ⟨_, rfl⟩
    · obtain ⟨result, hresult⟩ := hdispatch request
      exact ⟨_, congrArg (Except.map (responseTo request)) hresult⟩

/-- **An accepted timeout may lead past the end of the clock, and does so exactly if the clock leaves
no room for it.**  An accepted timeout has between one second and 63 bits of seconds.  The moment
until which the output of a command line is waited for can be told if the clock began with the
command line before the last so many seconds that it can show, and ended with it before the last
one; an operation crashes exactly if it is a command line that was started and this is not so, and
a worker on which all command lines are begun in time answers whatever it is asked. -/
theorem accepted_timeout_told_iff {document : String} (h : WorkerConfig.read document = .ok config) :
    (0 < config.operationTimeoutSeconds ∧ config.operationTimeoutSeconds < 2 ^ 63) ∧
    (∀ r : Run, (∃ moment, deadline (config.operationTimeoutSeconds * 1000) r = .ok moment) ↔
      r.LeavesRoom config.operationTimeoutSeconds) ∧
    (∀ m root index interpreter commandLine fs,
      ((pipelineIn config root).carryOut m index (.shell interpreter commandLine) fs).1 =
          .error .clockOverflow ↔
        let r := (m.run index root (config.operationTimeoutSeconds * 1000) commandLine fs).1
        Pipeline.isDrained r.ending = true ∧ ¬ r.LeavesRoom config.operationTimeoutSeconds) ∧
    ∀ m : Machine, (∀ index directory commandLine fs,
      (m.run index directory (config.operationTimeoutSeconds * 1000) commandLine fs).1.LeavesRoom
        config.operationTimeoutSeconds) →
      ∀ input broken host, ∃ response, (respond m config input broken host).1 = .ok response := by
  obtain ⟨hpos, hlt⟩ := WorkerConfig.operationTimeoutSeconds_of_read h
  exact ⟨⟨hpos, hlt⟩, fun r ↦ exists_deadline_iff hlt,
    fun m root index interpreter commandLine fs ↦ carryOut_crashes_iff hlt,
    fun m hroom input broken host ↦ exists_respond (fun request ↦ not_late hlt hroom) input broken⟩

/-- A machine on which every command line does well at once, at a moment of the clock. -/
def promptAt (moment : Nat) : Machine where
  run _ _ _ _ fs := (⟨.exited 0, [], [], ⟨0, 0⟩, 0, moment⟩, fs)
  time _ := ⟨0, 0⟩
  nanoseconds _ := 0

/-- The longest timeout is accepted, and works out in the first second of the clock only. -/
theorem accepted_timeout_told_iff_of_longest :
    WorkerConfig.read longestDocument = .ok longestConfig ∧
      ((pipelineIn longestConfig "w").carryOut (promptAt 1000) 0 (.shell .posix "true") default).1 =
        .error .clockOverflow ∧
      ∃ response, (respond (promptAt 999) longestConfig [] none ⟨default, 0⟩).1 = .ok response := by
  obtain ⟨-, -, hcrash, hanswer⟩ := accepted_timeout_told_iff read_longestDocument
  refine ⟨read_longestDocument, ?_, ?_⟩
  · refine (hcrash (promptAt 1000) "w" 0 .posix "true" default).2 ⟨rfl, fun hroom ↦ ?_⟩
    rw [timeout_longestConfig, leavesRoom_longest] at hroom
    exact absurd hroom.1 (show ¬ 1000 < 0 + 1000 by decide)
  · refine hanswer (promptAt 999) (fun index directory commandLine fs ↦ ?_) [] none ⟨default, 0⟩
    rw [timeout_longestConfig, leavesRoom_longest]
    exact show 999 < 0 + 1000 ∧ 999 / 1000 + 1 < 2 ^ 63 by decide

end Service
end FirmwareLane
