import FirmwareLane.Proofs.Transfer.Lookalikes
import FirmwareLane.Proofs.Worker.Housing

/-!
# Answers from two sandboxes

In two sandboxes that differ in identities only, the work that is still to be done comes to answers
that differ in what clocks say and in the roots that errors name (`conforms_complete`).  Only if the
paths of the sandboxes are not of one length there may be another difference: a path may be too long
below one of them.

`Resembles` says what two such answers have in common, and `Conforms` allows for the exception.  In
one and the same sandbox both come to the same, but for clocks (`Conforms.unclocked_eq`).
-/

set_option autoImplicit false
namespace FirmwareLane

/-- A response without what clocks said. -/
def RunResponse.unclocked (r : RunResponse) : RunResponse :=
  { r with reports := r.reports.map Report.unclocked }

namespace Service

open Action (perform)
open Pipeline (Outcome)
open Transfer (Based Moved SameRoom Site)

/-! ## Answers that resemble each other -/

/-- An answer without what clocks said. -/
def unclocked (a : Answer) : Answer := a.map fun result ↦ result.map RunResponse.unclocked

/-- The error of a sandbox that cannot be made. -/
def notCreated (path : String) (fault : Files.Fault) : RemoteError :=
  .sandboxFailed (Sandbox.Fault.mk path fault).message

/-- Two answers of runs in two sandboxes differ only in what clocks said, and in the roots of the
sandboxes where errors name them. -/
inductive Resembles (root root' : String) : Answer → Answer → Prop
  | crashed (crash : Crash) : Resembles root root' (.error crash) (.error crash)
  | responded {r r' : RunResponse} (h : r.unclocked = r'.unclocked) :
      Resembles root root' (.ok (.ok r)) (.ok (.ok r'))
  | refused (e : RemoteError) : Resembles root root' (.ok (.error e)) (.ok (.error e))
  | notCreated (fault : Files.Fault) :
      Resembles root root' (.ok (.error (notCreated root fault)))
        (.ok (.error (notCreated root' fault)))
  | notRestored {fault fault' : Transfer.Fault} (h : Moved root root' fault fault') :
      Resembles root root' (.ok (.error (restoreFailed fault))) (.ok (.error (restoreFailed fault')))
  | notCaptured {fault fault' : Transfer.Fault} (h : Moved root root' fault fault') :
      Resembles root root' (.ok (.error (captureFailed fault))) (.ok (.error (captureFailed fault')))

/-- An answer says that a path in a sandbox, or its own, is too long. -/
inductive SaysTooLong (root : String) : Answer → Prop
  | notCreated : SaysTooLong root (.ok (.error (notCreated root .nameTooLong)))
  | notRestored {fault : Transfer.Fault} (h : fault.isTooLong = true) :
      SaysTooLong root (.ok (.error (restoreFailed fault)))
  | notCaptured {fault : Transfer.Fault} (h : fault.isTooLong = true) :
      SaysTooLong root (.ok (.error (captureFailed fault)))

/-- Two answers resemble each other, unless the paths of the sandboxes are not of one length and one
of the answers says that a path is too long. -/
def Conforms (root root' : String) (a a' : Answer) : Prop :=
  Resembles root root' a a' ∨ ¬ SameRoom root root' ∧ (SaysTooLong root a ∨ SaysTooLong root' a')

variable {root root' : String} {a a' b : Answer}

theorem Resembles.self (root root' : String) (a : Answer) : Resembles root root' a a := by
  cases a with
  | error crash => exact .crashed crash
  | ok result =>
    cases result with
    | error e => exact .refused e
    | ok r => exact .responded rfl

theorem Resembles.unclocked_eq (h : Resembles root root a b) : unclocked a = unclocked b := by
  have hmoved : ∀ {fault fault' : Transfer.Fault}, Moved root root fault fault' → fault = fault' := by
    intro fault fault' h
    cases h <;> rfl
  cases h with
  | crashed crash => rfl
  | responded h => exact congrArg (fun r ↦ Except.ok (Except.ok r)) h
  | refused e => rfl
  | notCreated fault => rfl
  | notRestored h => rw [hmoved h]
  | notCaptured h => rw [hmoved h]

/-- In one sandbox answers differ in what clocks said at most. -/
theorem Conforms.unclocked_eq (h : Conforms root root a b) : unclocked a = unclocked b :=
  h.elim Resembles.unclocked_eq fun h ↦ absurd rfl h.1

/-- An answer that differs from another in what clocks said conforms to whatever that conforms to. -/
theorem Conforms.of_unclocked (h : unclocked b = unclocked a) (h' : Conforms root root' a a') :
    Conforms root root' b a' := by
  rcases Outcome.map_eq_map h with ⟨crash, rfl, rfl⟩ | ⟨result, result', rfl, rfl, hresult⟩
  · exact h'
  rcases Outcome.map_eq_map hresult with ⟨e, rfl, rfl⟩ | ⟨r, r', rfl, rfl, hr⟩
  · exact h'
  rcases h' with hsame | ⟨hroom, hlong⟩
  · cases hsame with
    | responded h' => exact .inl (.responded (hr.trans h'))
  · exact .inr ⟨hroom, hlong.elim (fun hlong ↦ nomatch hlong) .inr⟩

/-! ## Captures -/

variable {m : Machine} {config : WorkerConfig} {payload : RunRequest} {fs fs' made made' : Files}
  {R R' W W' : Place} {name name' : String} {n n' : Node}

/-- What is made of the captures of two sandboxes conforms if it does for every capture. -/
theorem conforms_captureSandbox {next next' : Snapshot → Answer}
    (h : Housed made fs root W name n) (h' : Housed made' fs' root' W' name' n')
    (hn : n.Relabelled n') (table : Classification)
    (hnext : ∀ s, Conforms root root' (next s) (next' s)) :
    Conforms root root'
      (match captureSandbox fs root table with
        | .ok s => next s
        | .error e => .ok (.error e))
      (match captureSandbox fs' root' table with
        | .ok s => next' s
        | .error e => .ok (.error e)) := by
  rw [captureSandbox, captureSandbox]
  rcases Transfer.corresponds_capture h.based h'.based h.sound hn table with halike | ⟨hroom, hlong⟩
  · generalize Transfer.capture fs root table = x at halike
    generalize Transfer.capture fs' root' table = x' at halike
    cases halike with
    | ok s => exact hnext s
    | error hmoved => exact .inl (.notCaptured hmoved)
  · refine .inr ⟨hroom, hlong.imp ?_ ?_⟩
    · rintro ⟨fault, heq, hfault⟩
      rw [heq]
      exact .notCaptured hfault
    · rintro ⟨fault, heq, hfault⟩
      rw [heq]
      exact .notCaptured hfault

/-- What is sent back conforms. -/
theorem conforms_runResponse (h : Housed made fs root W name n)
    (h' : Housed made' fs' root' W' name' n') (hn : n.Relabelled n') (before : Option Snapshot)
    {outcome outcome' : Outcome} (houtcome : outcome.unclocked = outcome'.unclocked) :
    Conforms root root' (.ok (runResponse fs root payload before outcome))
      (.ok (runResponse fs' root' payload before outcome')) := by
  have hresponse : ∀ (fs : Files) (root : String) (outcome : Outcome),
      (.ok (runResponse fs root payload before outcome) : Answer) =
        match captureSandbox fs root payload.extensions with
        | .ok after => .ok (.ok ⟨outcome.succeeded, returned before after, outcome.diagnostics,
            outcome.reports⟩)
        | .error e => .ok (.error e) := by
    intro fs root outcome
    rw [runResponse]
    cases captureSandbox fs root payload.extensions <;> rfl
  rw [hresponse, hresponse]
  refine conforms_captureSandbox h h' hn _ fun after ↦ .inl (.responded ?_)
  have hdiagnostics : outcome.diagnostics = outcome'.diagnostics :=
    (congrArg Outcome.diagnostics houtcome :)
  have hreports : outcome.reports.map Report.unclocked = outcome'.reports.map Report.unclocked :=
    (congrArg Outcome.reports houtcome :)
  rw [RunResponse.unclocked, RunResponse.unclocked, Outcome.succeeded, Outcome.succeeded, hdiagnostics,
    hreports]

/-! ## The work in a sandbox -/

theorem conforms_operating (hm : m.IsLocal) (h : Housed made fs root W name n)
    (h' : Housed made' fs' root' W' name' n') (hn : n.Relabelled n') (before : Option Snapshot)
    (outcome : Outcome) (left : List Operation) :
    Conforms root root' ((Work.operating before outcome left).complete m config payload root fs).1
      ((Work.operating before outcome left).complete m config payload root' fs').1 := by
  obtain ⟨k, k', hk, hleaves, hleaves', hsame⟩ := Pipeline.exists_executeFrom_twin hm
    (config.operationTimeoutSeconds * 1000) left outcome.reports.length h h' hn
  rw [Work.complete, Work.complete, pipelineIn, pipelineIn]
  generalize Pipeline.executeFrom m ⟨root, config.operationTimeoutSeconds * 1000⟩
    outcome.reports.length left fs = x at hleaves hsame ⊢
  generalize Pipeline.executeFrom m ⟨root', config.operationTimeoutSeconds * 1000⟩
    outcome.reports.length left fs' = x' at hleaves' hsame ⊢
  obtain ⟨x, fs₁⟩ := x
  obtain ⟨x', fs₁'⟩ := x'
  rcases Outcome.map_eq_map hsame with ⟨crash, rfl, rfl⟩ | ⟨more, more', rfl, rfl, hmore⟩
  · exact .inl (.crashed crash)
  · refine conforms_runResponse (h.of_leaves hleaves) (h'.of_leaves hleaves') hk before ?_
    rw [Outcome.unclocked_followedBy, Outcome.unclocked_followedBy, hmore]

theorem conforms_restored (hm : m.IsLocal) (h : Housed made fs root W name n)
    (h' : Housed made' fs' root' W' name' n') (hn : n.Relabelled n') :
    Conforms root root' (Work.restored.complete m config payload root fs).1
      (Work.restored.complete m config payload root' fs').1 := by
  by_cases hmodified : payload.modifiedOnly = true
  · have hbefore : ∀ (fs : Files) (root : String),
        (Work.restored.complete m config payload root fs).1 =
          match captureSandbox fs root payload.extensions with
          | .ok s => ((Work.operating (some s) ⟨none, []⟩ payload.operations).complete m config
              payload root fs).1
          | .error e => .ok (.error e) := by
      intro fs root
      rw [← Work.complete_next, Work.next, baseline, if_pos hmodified]
      cases captureSandbox fs root payload.extensions <;> rfl
    rw [hbefore, hbefore]
    exact conforms_captureSandbox h h' hn _ fun s ↦ conforms_operating hm h h' hn (some s) _ _
  · have hbefore : ∀ (fs : Files) (root : String),
        Work.restored.complete m config payload root fs =
          (Work.operating none ⟨none, []⟩ payload.operations).complete m config payload root fs := by
      intro fs root
      rw [← Work.complete_next, Work.next, baseline, if_neg hmodified]
    rw [hbefore, hbefore]
    exact conforms_operating hm h h' hn none _ _

/-- What is restored stays in the sandbox. -/
theorem leaves_of_grows {k : Node} (h : Housed made fs root W name n) (hgrows : Files.Grows n k)
    (hfiles : fs' = fs.within (W ++ [name]) k) : Leaves fs fs' (W ++ [name]) k := by
  rw [hfiles]
  exact h.secluded.leaves (hgrows.isDirectory h.isDirectory) (hgrows.sound h.sound)
    fun p m b i hi hfile ↦ (hgrows.exists_file hi hfile).elim fun b' hold ↦ ⟨p, _, b', hold⟩

theorem conforms_begun (hm : m.IsLocal) (h : Housed made fs root W name Node.emptyDirectory)
    (h' : Housed made' fs' root' W' name' Node.emptyDirectory) :
    Conforms root root' (Work.begun.complete m config payload root fs).1
      (Work.begun.complete m config payload root' fs').1 := by
  have hnotRestored : ∀ {fs : Files} {root : String} {fault : Transfer.Fault},
      (perform (Transfer.restore root payload.snapshot) fs).1 = .error fault →
      (Work.begun.complete m config payload root fs).1 = .ok (.error (restoreFailed fault)) := by
    intro fs root fault heq
    rw [Work.complete, runInside]
    generalize perform (Transfer.restore root payload.snapshot) fs = x at heq
    obtain ⟨x, fs₁⟩ := x
    obtain rfl : x = .error fault := heq
    rfl
  have hrestored : ∀ {fs fs₁ : Files} {root : String},
      perform (Transfer.restore root payload.snapshot) fs = (.ok (), fs₁) →
      Work.begun.complete m config payload root fs =
        Work.restored.complete m config payload root fs₁ := by
    intro fs fs₁ root heq
    rw [← Work.complete_next, Work.next, heq]
  cases (Transfer.isLocal_restore payload.snapshot).twins (Site.of_empty h.based h.keeps.tree _)
    (Site.of_empty h'.based h'.keeps.tree _) with
  | @alike k hgrows hfiles hfiles' halike =>
    rcases hx : perform (Transfer.restore root payload.snapshot) fs with ⟨x, fs₁⟩
    rcases hx' : perform (Transfer.restore root' payload.snapshot) fs' with ⟨x', fs₁'⟩
    rw [hx] at hfiles halike
    rw [hx'] at hfiles' halike
    cases halike with
    | error hmoved =>
      rw [hnotRestored (congrArg Prod.fst hx), hnotRestored (congrArg Prod.fst hx')]
      exact .inl (.notRestored hmoved)
    | ok _ =>
      rw [hrestored hx, hrestored hx']
      exact conforms_restored hm (h.of_leaves (leaves_of_grows h hgrows hfiles))
        (h'.of_leaves (leaves_of_grows h' hgrows hfiles'))
        (.refl (hgrows.sound Node.sound_emptyDirectory))
  | apart hk hk' hfiles hfiles' hroom hlong =>
    refine .inr ⟨hroom, hlong.imp ?_ ?_⟩
    · rintro ⟨fault, heq, hfault⟩
      rw [hnotRestored heq]
      exact .notRestored hfault
    · rintro ⟨fault, heq, hfault⟩
      rw [hnotRestored heq]
      exact .notRestored hfault

/-- **The work in two sandboxes that differ in identities only comes to answers that conform.** -/
theorem conforms_complete (hm : m.IsLocal) (h : Housed made fs root W name n)
    (h' : Housed made' fs' root' W' name' n') (hn : n.Relabelled n') (w : Work)
    (hbegun : w = .begun → n = Node.emptyDirectory ∧ n' = Node.emptyDirectory) :
    Conforms root root' (w.complete m config payload root fs).1
      (w.complete m config payload root' fs').1 := by
  cases w with
  | begun =>
    obtain ⟨rfl, rfl⟩ := hbegun rfl
    exact conforms_begun hm h h'
  | restored => exact conforms_restored hm h h' hn
  | operating before outcome left => exact conforms_operating hm h h' hn before outcome left
  | finished answer => exact .inl (.self root root' answer)

/-! ## One step -/

theorem Work.next_ne_begun (w : Work) (fs : Files) (hw : ∀ answer, w ≠ .finished answer) :
    (w.next m config payload root fs).1 ≠ .begun := by
  cases w with
  | begun =>
    rw [next]
    rcases perform (Transfer.restore root payload.snapshot) fs with ⟨fault | _, fs₁⟩ <;> rintro ⟨⟩
  | restored =>
    rw [next]
    cases baseline fs root payload <;> rintro ⟨⟩
  | operating before outcome left =>
    cases left with
    | nil => rintro ⟨⟩
    | cons operation rest =>
      rw [next]
      rcases (pipelineIn config root).carryOut m outcome.reports.length operation fs with
        ⟨crash | report, fs₁⟩ <;> rintro ⟨⟩
  | finished answer => exact absurd rfl (hw answer)

/-- **A step of the work in a sandbox changes nothing else.** -/
theorem exists_leaves_next (hm : m.IsLocal) (h : Housed made fs root W name n) (w : Work)
    (hbegun : w = .begun → n = Node.emptyDirectory) :
    ∃ k, Leaves fs (w.next m config payload root fs).2 (W ++ [name]) k := by
  cases w with
  | begun =>
    obtain rfl := hbegun rfl
    obtain ⟨k, hgrows, hfiles⟩ := (Transfer.isLocal_restore payload.snapshot).exists_perform
      (Site.of_empty h.based h.keeps.tree _)
    refine ⟨k, ?_⟩
    rw [Work.next]
    rcases hx : perform (Transfer.restore root payload.snapshot) fs with ⟨fault | _, fs₁⟩ <;>
      exact leaves_of_grows h hgrows (by rw [← hfiles, hx])
  | restored =>
    refine ⟨n, ?_⟩
    rw [Work.next]
    cases baseline fs root payload <;> exact h.secluded.leaves_self
  | operating before outcome left =>
    cases left with
    | nil => exact ⟨n, h.secluded.leaves_self⟩
    | cons operation rest =>
      obtain ⟨k, -, -, hleaves, -⟩ := Pipeline.exists_carryOut_twin hm h.secluded h.secluded
        (.refl h.sound) outcome.reports.length (config.operationTimeoutSeconds * 1000) operation
      refine ⟨k, ?_⟩
      rw [Work.next, pipelineIn]
      generalize Pipeline.carryOut m ⟨root, config.operationTimeoutSeconds * 1000⟩
        outcome.reports.length operation fs = x at hleaves ⊢
      rcases x with ⟨crash | report, fs₁⟩ <;> exact hleaves
  | finished answer => exact ⟨n, h.secluded.leaves_self⟩

end Service
end FirmwareLane
