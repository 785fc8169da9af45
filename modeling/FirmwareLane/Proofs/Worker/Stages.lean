import FirmwareLane.Proofs.Worker.Pipeline
import FirmwareLane.Proofs.Worker.Running
import Mathlib.Logic.Function.Basic

/-!
# Runs beside each other

A worker carries out many runs at once, each step by step: it makes the sandbox, restores the
snapshot, captures what changes are measured against, carries out one operation after another,
captures what they left, and leaves the sandbox.  Between two steps of one run there may be any
number of steps of others.  A schedule says whose step is next, and `World.after` what comes of it.

## What is here

* `Stage.complete`: what a run would come to from where it is, if all others stopped.  It stays the
  same with every step of the run itself (`complete_next`).
* `exists_answered`: a run that has taken enough steps is answered.
* `after_alone`: the steps of a run that nobody interrupts come to what `run` says.
-/

set_option autoImplicit false
namespace FirmwareLane

open Action (perform)

namespace Pipeline

/-- The outcome of operations and of those after them. -/
def Outcome.followedBy (o more : Outcome) : Outcome :=
  ⟨o.diagnostics <|> more.diagnostics, o.reports ++ more.reports⟩

theorem Outcome.nil_followedBy (o : Outcome) : Outcome.followedBy ⟨none, []⟩ o = o := rfl

theorem Outcome.followedBy_nil (o : Outcome) : o.followedBy ⟨none, []⟩ = o := by
  rw [followedBy, List.append_nil]
  cases o with
  | mk diagnostics reports => cases diagnostics <;> rfl

theorem Outcome.followedBy_assoc (o p q : Outcome) :
    (o.followedBy p).followedBy q = o.followedBy (p.followedBy q) := by
  rw [followedBy, followedBy, followedBy, followedBy, List.append_assoc]
  cases o.diagnostics <;> rfl

/-- The outcome of one operation, by its report, with those after it skipped if it failed. -/
def outcomeOf (timeout : Nat) (report : Report) (rest : List Operation) : Outcome :=
  if report.status = .succeeded then ⟨none, [report]⟩
  else ⟨some (describeFailure timeout report), report :: skipAll (report.index + 1) rest⟩

/-- The operations that are left after one, by its report. -/
def leftAfter (report : Report) (rest : List Operation) : List Operation :=
  if report.status = .succeeded then rest else []

theorem index_of_carryOut {m : Machine} {p : Pipeline} {index : Nat} {operation : Operation}
    {fs fs' : Files} {report : Report}
    (h : carryOut m p index operation fs = (.ok report, fs')) : report.index = index := by
  by_cases htold : Told m p index operation fs
  · rw [carryOut_of_told htold] at h
    obtain rfl := Except.ok.inj (Prod.ext_iff.1 h).1
    exact index_reportIn
  · rw [carryOut_of_not_told htold] at h
    exact nomatch (Prod.ext_iff.1 h).1

/-- Operations are carried out one after another. -/
theorem executeFrom_cons (m : Machine) (p : Pipeline) (index : Nat) (operation : Operation)
    (rest : List Operation) (fs : Files) :
    executeFrom m p index (operation :: rest) fs =
      match carryOut m p index operation fs with
      | (.error crash, fs') => (.error crash, fs')
      | (.ok report, fs') =>
        match executeFrom m p (index + 1) (leftAfter report rest) fs' with
        | (.ok more, fs'') => (.ok ((outcomeOf p.timeout report rest).followedBy more), fs'')
        | (.error crash, fs'') => (.error crash, fs'') := by
  rw [executeFrom]
  rcases hcarry : carryOut m p index operation fs with ⟨crash | report, fs'⟩
  · rfl
  dsimp only
  rw [leftAfter, outcomeOf]
  split
  · rcases executeFrom m p (index + 1) rest fs' with ⟨crash | more, fs''⟩ <;> rfl
  · rw [index_of_carryOut hcarry, executeFrom]
    dsimp only
    rw [Outcome.followedBy_nil]

end Pipeline

namespace Service

open Pipeline (Outcome)

/-! ## The stages of a run -/

/-- What a run comes to. -/
abbrev Answer := Except Crash (Except RemoteError RunResponse)

/-- How far the work in a sandbox is. -/
inductive Work where
  /-- The sandbox was made. -/
  | begun
  /-- The snapshot was restored. -/
  | restored
  /-- So much came of the operations that were carried out, and these are left. -/
  | operating (before : Option Snapshot) (outcome : Outcome) (left : List Operation)
  /-- The sandbox is still there. -/
  | finished (answer : Answer)

/-- How far a run is. -/
inductive Stage where
  | asked
  | inside (payload : RunRequest) (root : String) (work : Work)
  | answered (answer : Answer)

section Steps

variable (m : Machine) (config : WorkerConfig) (request : Request) (payload : RunRequest)
  (root : String)

/-- The next step of the work in a sandbox. -/
def Work.next : Work → Files → Work × Files
  | .begun, fs =>
    match perform (Transfer.restore root payload.snapshot) fs with
    | (.error fault, fs) => (.finished (.ok (.error (restoreFailed fault))), fs)
    | (.ok (), fs) => (.restored, fs)
  | .restored, fs =>
    match baseline fs root payload with
    | .error e => (.finished (.ok (.error e)), fs)
    | .ok before => (.operating before ⟨none, []⟩ payload.operations, fs)
  | .operating before outcome [], fs =>
    (.finished (.ok (runResponse fs root payload before outcome)), fs)
  | .operating before outcome (operation :: rest), fs =>
    match (pipelineIn config root).carryOut m outcome.reports.length operation fs with
    | (.error crash, fs) => (.finished (.error crash), fs)
    | (.ok report, fs) =>
      (.operating before
        (outcome.followedBy (Pipeline.outcomeOf (pipelineIn config root).timeout report rest))
        (Pipeline.leftAfter report rest), fs)
  | .finished answer, fs => (.finished answer, fs)

/-- The next step of a run. -/
def Stage.next : Stage → Host → Stage × Host
  | .asked, host =>
    match (request.parsePayload : Except RemoteError RunRequest) with
    | .error e => (.answered (.ok (.error e)), host)
    | .ok payload =>
      let name := Sandbox.name request.requestId (m.nanoseconds host.sandboxes) host.sandboxes
      match perform (Sandbox.create config.workRoot name) host.files with
      | (.error fault, fs) =>
        (.answered (.ok (.error (.sandboxFailed fault.message))), ⟨fs, host.sandboxes + 1⟩)
      | (.ok root, fs) => (.inside payload root .begun, ⟨fs, host.sandboxes + 1⟩)
  | .inside _ root (.finished answer), host =>
    (.answered answer, ⟨leave config root host.files, host.sandboxes⟩)
  | .inside payload root work, host =>
    let (work, fs) := work.next m config payload root host.files
    (.inside payload root work, ⟨fs, host.sandboxes⟩)
  | .answered answer, host => (.answered answer, host)

/-! ## What a run would come to -/

/-- What the work in a sandbox comes to if nobody else does anything. -/
def Work.complete : Work → Files → Answer × Files
  | .begun, fs => runInside m config payload root fs
  | .restored, fs =>
    match baseline fs root payload with
    | .error e => (.ok (.error e), fs)
    | .ok before =>
      match (pipelineIn config root).execute m payload.operations fs with
      | (.error crash, fs) => (.error crash, fs)
      | (.ok outcome, fs) => (.ok (runResponse fs root payload before outcome), fs)
  | .operating before outcome left, fs =>
    match (pipelineIn config root).executeFrom m outcome.reports.length left fs with
    | (.error crash, fs) => (.error crash, fs)
    | (.ok more, fs) => (.ok (runResponse fs root payload before (outcome.followedBy more)), fs)
  | .finished answer, fs => (answer, fs)

/-- What a run comes to if nobody else does anything. -/
def Stage.complete : Stage → Host → Answer × Host
  | .asked, host => run m config request host
  | .inside payload root work, host =>
    let (answer, fs) := work.complete m config payload root host.files
    (answer, ⟨leave config root fs, host.sandboxes⟩)
  | .answered answer, host => (answer, host)

end Steps

variable {m : Machine} {config : WorkerConfig} {request : Request} {payload : RunRequest}
  {root : String} {host : Host}

theorem Stage.next_inside (w : Work) (host : Host) (hw : ∀ answer, w ≠ .finished answer) :
    (Stage.inside payload root w).next m config request host =
      (.inside payload root (w.next m config payload root host.files).1,
        ⟨(w.next m config payload root host.files).2, host.sandboxes⟩) := by
  cases w with
  | begun => rfl
  | restored => rfl
  | operating before outcome left => rfl
  | finished answer => exact absurd rfl (hw answer)

theorem Stage.complete_inside (w : Work) (host : Host) :
    ((Stage.inside payload root w).complete m config request host).1 =
      (w.complete m config payload root host.files).1 := by
  rw [complete]

theorem Stage.complete_answered (answer : Answer) (host : Host) :
    (Stage.answered answer).complete m config request host = (answer, host) := rfl

theorem Work.complete_next (w : Work) (fs : Files) :
    (w.next m config payload root fs).1.complete m config payload root
      (w.next m config payload root fs).2 = w.complete m config payload root fs := by
  cases w with
  | begun =>
    rw [next, complete, runInside]
    rcases perform (Transfer.restore root payload.snapshot) fs with ⟨fault | _, fs⟩ <;> rfl
  | restored =>
    rw [next, complete]
    cases baseline fs root payload <;> rfl
  | operating before outcome left =>
    cases left with
    | nil =>
      rw [next, complete, complete, Pipeline.executeFrom]
      dsimp only
      rw [Outcome.followedBy_nil]
    | cons operation rest =>
      rw [next, complete, Pipeline.executeFrom_cons]
      rcases hcarry : (pipelineIn config root).carryOut m outcome.reports.length operation fs with
        ⟨crash | report, fs⟩
      · rfl
      dsimp only
      rw [complete, Pipeline.leftAfter]
      by_cases hstatus : report.status = .succeeded
      · have hlength : (outcome.followedBy (Pipeline.outcomeOf (pipelineIn config root).timeout
            report rest)).reports.length = outcome.reports.length + 1 := by
          rw [Pipeline.outcomeOf, if_pos hstatus]
          exact List.length_append
        rw [if_pos hstatus, hlength]
        rcases (pipelineIn config root).executeFrom m (outcome.reports.length + 1) rest fs with
          ⟨crash | more, fs⟩
        · rfl
        · dsimp only
          rw [Outcome.followedBy_assoc]
      · -- nothing is left, so the number of the next operation does not matter
        rw [if_neg hstatus, Pipeline.executeFrom, Pipeline.executeFrom]
        dsimp only
        rw [Outcome.followedBy_assoc]
  | finished answer => rfl

/-- **A step of a run does not change what it comes to.** -/
theorem Stage.complete_next (s : Stage) (host : Host) :
    (s.next m config request host).1.complete m config request (s.next m config request host).2 =
      s.complete m config request host := by
  cases s with
  | asked =>
    rw [next, complete, run]
    cases (request.parsePayload : Except RemoteError RunRequest) with
    | error e => rfl
    | ok payload =>
      dsimp only
      rcases perform (Sandbox.create config.workRoot (Sandbox.name request.requestId
        (m.nanoseconds host.sandboxes) host.sandboxes)) host.files with ⟨fault | root, fs⟩ <;> rfl
  | answered answer => rfl
  | inside payload root w =>
    have hwork := @Work.complete_next m config payload root w host.files
    cases w with
    | finished answer => rfl
    | begun =>
      rw [next, complete, complete, hwork]
      rintro _ ⟨⟩
    | restored =>
      rw [next, complete, complete, hwork]
      rintro _ ⟨⟩
    | operating before outcome left =>
      rw [next, complete, complete, hwork]
      rintro _ ⟨⟩

/-! ## How many steps are left -/

/-- The number of steps that the work in a sandbox takes at most until the sandbox is left. -/
def Work.remaining (payload : RunRequest) : Work → Nat
  | .begun => payload.operations.length + 4
  | .restored => payload.operations.length + 3
  | .operating _ _ left => left.length + 2
  | .finished _ => 1

/-- The number of steps that a run takes at most until it is answered. -/
def Stage.remaining (request : Request) : Stage → Nat
  | .asked =>
    match (request.parsePayload : Except RemoteError RunRequest) with
    | .error _ => 1
    | .ok payload => payload.operations.length + 5
  | .inside payload _ work => work.remaining payload
  | .answered _ => 0

theorem Work.remaining_pos (w : Work) : 0 < w.remaining payload := by
  cases w <;> exact Nat.succ_pos _

theorem Work.remaining_next (w : Work) (fs : Files) (hw : ∀ answer, w ≠ .finished answer) :
    (w.next m config payload root fs).1.remaining payload < w.remaining payload := by
  cases w with
  | begun =>
    rw [next]
    rcases perform (Transfer.restore root payload.snapshot) fs with ⟨fault | _, fs⟩
    · exact Nat.succ_lt_succ (Nat.succ_pos _)
    · exact Nat.lt_succ_self _
  | restored =>
    rw [next]
    cases baseline fs root payload with
    | error e => exact Nat.succ_lt_succ (Nat.succ_pos _)
    | ok before => exact Nat.lt_succ_self _
  | operating before outcome left =>
    cases left with
    | nil => exact Nat.lt_succ_self 1
    | cons operation rest =>
      rw [next]
      rcases (pipelineIn config root).carryOut m outcome.reports.length operation fs with
        ⟨crash | report, fs⟩
      · exact Nat.succ_lt_succ (Nat.succ_pos _)
      · have hle : (Pipeline.leftAfter report rest).length ≤ rest.length := by
          rw [Pipeline.leftAfter]
          split
          · exact Nat.le_refl _
          · exact Nat.zero_le _
        exact Nat.add_lt_add_right (Nat.lt_succ_of_le hle) 2
  | finished answer => exact absurd rfl (hw answer)

/-- A step brings a run closer to its answer. -/
theorem Stage.remaining_next (s : Stage) (host : Host) :
    (s.next m config request host).1.remaining request ≤ s.remaining request - 1 := by
  cases s with
  | asked =>
    rw [next, remaining]
    cases (request.parsePayload : Except RemoteError RunRequest) with
    | error e => exact Nat.le_refl 0
    | ok payload =>
      dsimp only
      rcases perform (Sandbox.create config.workRoot (Sandbox.name request.requestId
        (m.nanoseconds host.sandboxes) host.sandboxes)) host.files with ⟨fault | root, fs⟩
      · exact Nat.zero_le _
      · exact Nat.le_refl _
  | answered answer => exact Nat.le_refl 0
  | inside payload root w =>
    have hwork := fun hw ↦
      Nat.le_sub_one_of_lt (@Work.remaining_next m config payload root w host.files hw)
    cases w with
    | finished answer => exact Nat.le_refl 0
    | begun => exact hwork nofun
    | restored => exact hwork nofun
    | operating before outcome left =>
      rw [next]
      · exact hwork nofun
      · exact nofun

theorem Stage.eq_answered_of_remaining {s : Stage} (h : s.remaining request = 0) :
    ∃ answer, s = .answered answer := by
  cases s with
  | answered answer => exact ⟨answer, rfl⟩
  | inside payload root w => exact absurd h (Nat.ne_of_gt w.remaining_pos)
  | asked =>
    rw [remaining] at h
    split at h <;> exact nomatch h

/-! ## Many runs -/

/-- A worker with the runs of many requests. -/
structure World (ι : Type) where
  host : Host
  stage : ι → Stage

namespace World

variable {ι : Type}

/-- Before the first step of any run. -/
def start (host : Host) : World ι := ⟨host, fun _ ↦ .asked⟩

variable [DecidableEq ι]

/-- The worker with another host, and one run at another stage. -/
def set (w : World ι) (i : ι) (s : Stage) (host : Host) : World ι :=
  ⟨host, Function.update w.stage i s⟩

/-- The next step of one run. -/
def advance (m : Machine) (config : WorkerConfig) (requests : ι → Request) (w : World ι) (i : ι) :
    World ι :=
  let (s, host) := (w.stage i).next m config (requests i) w.host
  w.set i s host

/-- What comes of a schedule. -/
def after (m : Machine) (config : WorkerConfig) (requests : ι → Request) (schedule : List ι)
    (w : World ι) : World ι :=
  schedule.foldl (advance m config requests) w

variable {requests : ι → Request} {w : World ι} {i j : ι}

@[simp] theorem host_set (w : World ι) (i : ι) (s : Stage) (host : Host) :
    (w.set i s host).host = host := rfl

@[simp] theorem stage_set_self (w : World ι) (i : ι) (s : Stage) (host : Host) :
    (w.set i s host).stage i = s :=
  Function.update_self ..

theorem stage_set_of_ne (w : World ι) (s : Stage) (host : Host) (h : j ≠ i) :
    (w.set i s host).stage j = w.stage j :=
  Function.update_of_ne h ..

theorem set_self (w : World ι) (i : ι) : w.set i (w.stage i) w.host = w := by
  rw [set, Function.update_eq_self]

theorem stage_advance_self (w : World ι) (i : ι) :
    (w.advance m config requests i).stage i =
      ((w.stage i).next m config (requests i) w.host).1 :=
  stage_set_self ..

theorem stage_advance_of_ne (w : World ι) (h : j ≠ i) :
    (w.advance m config requests i).stage j = w.stage j :=
  stage_set_of_ne w _ _ h

/-- What every step keeps holds after every schedule. -/
theorem after_induction {P : World ι → Prop} (hstart : P w)
    (hstep : ∀ w i, P w → P (w.advance m config requests i)) (schedule : List ι) :
    P (w.after m config requests schedule) := by
  induction schedule generalizing w with
  | nil => exact hstart
  | cons i rest ih => exact ih (hstep w i hstart)

theorem remaining_after (schedule : List ι) (w : World ι) (i : ι) :
    ((w.after m config requests schedule).stage i).remaining (requests i) ≤
      (w.stage i).remaining (requests i) - schedule.count i := by
  induction schedule generalizing w with
  | nil => exact Nat.le_refl _
  | cons j rest ih =>
    refine Nat.le_trans (ih (w.advance m config requests j)) ?_
    by_cases hj : i = j
    · subst hj
      rw [stage_advance_self, List.count_cons_self, Nat.add_comm, Nat.sub_add_eq]
      exact Nat.sub_le_sub_right (Stage.remaining_next ..) _
    · refine Nat.le_of_eq ?_
      rw [stage_advance_of_ne w hj, List.count_cons_of_ne (Ne.symm hj)]

/-- **A run that has taken enough steps is answered.** -/
theorem exists_answered {schedule : List ι}
    (h : (w.stage i).remaining (requests i) ≤ schedule.count i) :
    ∃ answer, (w.after m config requests schedule).stage i = .answered answer := by
  refine @Stage.eq_answered_of_remaining (requests i) _ (Nat.le_zero.1 ?_)
  exact Nat.le_trans (remaining_after schedule w i) (Nat.le_of_eq (Nat.sub_eq_zero_of_le h))

/-- **A run that nobody interrupts comes to what `run` says.** -/
theorem after_alone {steps : Nat} (h : Stage.remaining (requests i) .asked ≤ steps) :
    ((start host).after m config requests (List.replicate steps i)).stage i =
        .answered (run m config (requests i) host).1 ∧
      ((start host).after m config requests (List.replicate steps i)).host =
        (run m config (requests i) host).2 := by
  have hcomplete : ∀ (steps : Nat) (w : World ι),
      ((w.after m config requests (List.replicate steps i)).stage i).complete m config (requests i)
        (w.after m config requests (List.replicate steps i)).host =
      (w.stage i).complete m config (requests i) w.host := by
    intro steps
    induction steps with
    | zero => exact fun w ↦ rfl
    | succ steps ih =>
      intro w
      refine (ih (w.advance m config requests i)).trans ?_
      rw [stage_advance_self]
      exact Stage.complete_next _ _
  obtain ⟨answer, hanswer⟩ := @exists_answered m config ι _ requests (start host) i
    (List.replicate steps i) (Nat.le_trans h (Nat.le_of_eq List.count_replicate_self.symm))
  have heq := hcomplete steps (start host)
  rw [hanswer] at heq
  refine ⟨?_, congrArg Prod.snd heq⟩
  rw [hanswer]
  exact congrArg Stage.answered (congrArg Prod.fst heq)

end World
end Service
end FirmwareLane
