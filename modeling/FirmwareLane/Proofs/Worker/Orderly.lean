import FirmwareLane.Proofs.Worker.Answering
import FirmwareLane.Proofs.Worker.Grounds

/-!
# A worker with runs at all stages

The invariant of a worker that carries out many runs at once looks at what each would come to from
where it is (`Stage.complete`).  The steps of a run itself do not change that, and those of the others
change nothing that it depends on (`Placed.of_beside`).

`Orderly` says what is known of such a worker while the work root can be made, and `Barred` what is
known if it cannot: then nobody gets a sandbox.  Every step keeps them (`Orderly.exists_advance`,
`Barred.advance`).
-/

set_option autoImplicit false
namespace FirmwareLane
namespace Service

open Action (perform)
open Sandbox (Leading Over)

variable {ι : Type} {m : Machine} {config : WorkerConfig} {request : Request}
  {fs fs' S S' made initial : Files} {W : Place} {c : Node} {number number' count count' : Nat}

/-! ## Making a sandbox -/

/-- The name of the sandbox that a run would get with a number. -/
def sandboxName (m : Machine) (request : Request) (number : Nat) : String :=
  Sandbox.name request.requestId (m.nanoseconds number) number

/-- The path of the sandbox that a run would get with a number. -/
def sandboxPath (m : Machine) (config : WorkerConfig) (request : Request) (number : Nat) : String :=
  Path.below config.workRoot (sandboxName m request number)

theorem isPart_sandboxName (m : Machine) (request : Request) (number : Nat) :
    IsPart (sandboxName m request number) := Sandbox.isPart_name _ _ _

theorem nul_not_mem_sandboxName (m : Machine) (request : Request) (number : Nat) :
    '\x00' ∉ (sandboxName m request number).toList := Sandbox.nul_not_mem_name _ _ _

/-- The first step of a run makes the sandbox, if the request makes sense. -/
theorem next_asked (m : Machine) (config : WorkerConfig) (request : Request) (host : Host) :
    Stage.next m config request .asked host =
      match (request.parsePayload : Except RemoteError RunRequest) with
      | .error e => (.answered (.ok (.error e)), host)
      | .ok payload =>
        match perform (Files.createAll config.workRoot) host.files with
        | (.error fault, fs) =>
          (.answered (.ok (.error (notCreated (sandboxPath m config request host.sandboxes) fault))),
            ⟨fs, host.sandboxes + 1⟩)
        | (.ok (), fs) =>
          match fs.withDirectory (sandboxPath m config request host.sandboxes) with
          | .ok fs => (.inside payload (sandboxPath m config request host.sandboxes) .begun,
              ⟨fs, host.sandboxes + 1⟩)
          | .error fault =>
            (.answered (.ok (.error
              (notCreated (sandboxPath m config request host.sandboxes) fault))),
              ⟨fs, host.sandboxes + 1⟩) := by
  rw [Stage.next]
  cases (request.parsePayload : Except RemoteError RunRequest) with
  | error e => rfl
  | ok payload =>
    dsimp only
    rw [Sandbox.perform_create]
    rcases perform (Files.createAll config.workRoot) host.files with ⟨fault | _, fs⟩
    · rfl
    dsimp only
    rw [sandboxPath, sandboxName]
    cases fs.withDirectory (Path.below config.workRoot (Sandbox.name request.requestId
      (m.nanoseconds host.sandboxes) host.sandboxes)) <;> rfl

theorem run_eq (m : Machine) (config : WorkerConfig) (request : Request) (host : Host) :
    run m config request host =
      (Stage.next m config request .asked host).1.complete m config request
        (Stage.next m config request .asked host).2 :=
  (Stage.complete_next .asked host).symm

/-- **A run that is asked for among others is answered as without them.** -/
theorem conforms_run (hm : m.IsLocal) (hground : Ground made config.workRoot W c)
    (hS : perform (Files.createAll config.workRoot) fs = (.ok (), S)) (hover : Over made S)
    (hnone : S.root.at? (W ++ [sandboxName m request number]) = none)
    (hS' : perform (Files.createAll config.workRoot) fs' = (.ok (), S')) (hover' : Over made S')
    (hnone' : S'.root.at? (W ++ [sandboxName m request number']) = none) :
    Conforms (sandboxPath m config request number) (sandboxPath m config request number')
      (run m config request ⟨fs, number⟩).1 (run m config request ⟨fs', number'⟩).1 := by
  rw [run_eq, run_eq, next_asked, next_asked]
  cases (request.parsePayload : Except RemoteError RunRequest) with
  | error e => exact .inl (.refused e)
  | ok payload =>
    dsimp only
    rw [hS, hS']
    dsimp only
    have hname := isPart_sandboxName m request
    have hnul := nul_not_mem_sandboxName m request
    rcases Sandbox.withDirectory_twin hground hover hover' (hname number) (hname number')
        (hnul number) (hnul number') hnone hnone' with
      ⟨hmade, hmade'⟩ | ⟨fault, hno, hno'⟩ | ⟨hroom, hone⟩
    · obtain ⟨hhoused, -⟩ := Sandbox.housed_of_withDirectory hground hover (hname number)
        (hnul number) hnone hmade
      obtain ⟨hhoused', -⟩ := Sandbox.housed_of_withDirectory hground hover' (hname number')
        (hnul number') hnone' hmade'
      rw [← sandboxPath] at hmade hmade' hhoused hhoused'
      rw [hmade, hmade', Stage.complete_inside, Stage.complete_inside]
      exact conforms_begun hm hhoused hhoused'
    · rw [← sandboxPath] at hno hno'
      rw [hno, hno', Stage.complete_answered, Stage.complete_answered]
      exact .inl (.notCreated fault)
    · rw [← sandboxPath, ← sandboxPath] at hone hroom
      refine .inr ⟨hroom, hone.imp (fun hno ↦ ?_) fun hno ↦ ?_⟩
      · rw [hno, Stage.complete_answered]
        exact .notCreated
      · rw [hno, Stage.complete_answered]
        exact .notCreated

/-! ## Where a run stands among others -/

section Placed

variable (m : Machine) (config : WorkerConfig) (request : Request) (made initial : Files) (W : Place)

/-- A run among others stands so that what it would come to conforms to what it comes to alone,
whatever number its sandbox has then.  The files, with the work root made, are `S`, and `count`
sandboxes were asked for. -/
inductive Placed (S : Files) (count : Nat) : Stage → Prop
  | asked : Placed S count .asked
  | inside {payload : RunRequest} {root : String} {work : Work} {number : Nat} {n : Node}
      (hroot : root = sandboxPath m config request number) (hnumber : number < count)
      (hhoused : Housed made S root W (sandboxName m request number) n)
      (hbegun : work = .begun → n = Node.emptyDirectory)
      (hconforms : ∀ alone, Conforms root (sandboxPath m config request alone)
        (work.complete m config payload root S).1 (run m config request ⟨initial, alone⟩).1) :
      Placed S count (.inside payload root work)
  | answered {answer : Answer} (number : Nat)
      (hconforms : ∀ alone, Conforms (sandboxPath m config request number)
        (sandboxPath m config request alone) answer (run m config request ⟨initial, alone⟩).1) :
      Placed S count (.answered answer)

end Placed

variable {s : Stage} {name : String}

theorem Placed.mono (h : Placed m config request made initial W S count s)
    (hcount : count ≤ count') : Placed m config request made initial W S count' s := by
  cases h with
  | asked => exact .asked
  | inside hroot hnumber hhoused hbegun hconforms =>
    exact .inside hroot (Nat.lt_of_lt_of_le hnumber hcount) hhoused hbegun hconforms
  | answered number hconforms => exact .answered number hconforms

/-- **What happens in one sandbox does not matter to a run in another.** -/
theorem Placed.of_beside (hm : m.IsLocal) (h : Placed m config request made initial W S count s)
    (hbeside : Beside (W ++ [name]) S S') (hover : Over made S')
    (hne : ∀ payload root work, s = .inside payload root work → root ≠ Path.below config.workRoot name) :
    Placed m config request made initial W S' count s := by
  cases h with
  | asked => exact .asked
  | answered number hconforms => exact .answered number hconforms
  | @inside payload root work number n hroot hnumber hhoused hbegun hconforms =>
    have hother : name ≠ sandboxName m request number := by
      rintro rfl
      exact hne payload root work rfl hroot
    have hhoused' := hhoused.of_beside hbeside hover hother
    refine .inside hroot hnumber hhoused' hbegun fun alone ↦ .of_unclocked ?_ (hconforms alone)
    exact (conforms_complete hm hhoused' hhoused (.refl hhoused.sound) work fun hw ↦
      ⟨hbegun hw, hbegun hw⟩).unclocked_eq

/-- A worker with runs at all stages, where the work root can be made: `S` are the files with it. -/
structure Orderly (m : Machine) (config : WorkerConfig) (requests : ι → Request) (made initial : Files)
    (W : Place) (S : Files) (w : World ι) : Prop where
  settles : perform (Files.createAll config.workRoot) w.host.files = (.ok (), S)
  keeps : Over made S
  vacant : ∀ requestId nanoseconds number, w.host.sandboxes ≤ number →
    S.root.at? (W ++ [Sandbox.name requestId nanoseconds number]) = none
  settled : ∀ i payload root work, w.stage i = .inside payload root work → w.host.files = S
  placed : ∀ i,
    Placed m config (requests i) made initial W S w.host.sandboxes (w.stage i)
  apart : ∀ i j payload payload' root work work', w.stage i = .inside payload root work →
    w.stage j = .inside payload' root work' → i = j

variable [DecidableEq ι] {requests : ι → Request} {w : World ι} {i : ι}

namespace Orderly

/-- A run that is answered without a sandbox, or that makes the work root for nothing. -/
theorem set_answered (h : Orderly m config requests made initial W S w)
    (hground : Ground made config.workRoot W c) {host : Host} {answer : Answer}
    (hfiles : host.files = w.host.files ∨ host.files = S)
    (hcount : w.host.sandboxes ≤ host.sandboxes)
    (hself : Placed m config (requests i) made initial W S host.sandboxes (.answered answer)) :
    Orderly m config requests made initial W S (w.set i (.answered answer) host) := by
  have hinside : ∀ {j payload root work},
      (w.set i (.answered answer) host).stage j = .inside payload root work →
      w.stage j = .inside payload root work := by
    intro j payload root work hj
    by_cases heq : j = i
    · rw [heq, World.stage_set_self] at hj
      exact nomatch hj
    · rwa [World.stage_set_of_ne w _ _ heq] at hj
  refine ⟨?_, h.keeps, fun requestId nanoseconds number hnumber ↦ ?_,
    fun j payload root work hj ↦ ?_, fun j ↦ ?_, fun j k payload payload' root work work' hj hk ↦ ?_⟩
  · rw [World.host_set]
    rcases hfiles with hsame | hmade
    · exact hsame ▸ h.settles
    · rw [hmade]
      exact hground.perform_createAll h.keeps
  · exact h.vacant requestId nanoseconds number (Nat.le_trans hcount hnumber)
  · exact hfiles.elim (fun hsame ↦ hsame.trans (h.settled j payload root work (hinside hj))) id
  · by_cases heq : j = i
    · subst heq
      rwa [World.stage_set_self]
    · rw [World.stage_set_of_ne w _ _ heq]
      exact (h.placed j).mono hcount
  · exact h.apart j k payload payload' root work work' (hinside hj) (hinside hk)

/-- A run that does something in its own sandbox, or to it. -/
theorem set_of_beside (h : Orderly m config requests made initial W S w) (hm : m.IsLocal)
    (hground : Ground made config.workRoot W c) {requestId : String} {nanoseconds : Nat}
    (hbeside : Beside (W ++ [Sandbox.name requestId nanoseconds number]) S S')
    (hnone : made.root.at? (W ++ [Sandbox.name requestId nanoseconds number]) = none)
    (hnumber : number < count) (hcount : w.host.sandboxes ≤ count)
    (hothers : ∀ j, j ≠ i → ∀ payload root work, w.stage j = .inside payload root work →
      root ≠ Path.below config.workRoot (Sandbox.name requestId nanoseconds number))
    (hself : Placed m config (requests i) made initial W S' count s)
    (hroot : ∀ payload root work, s = .inside payload root work →
      root = Path.below config.workRoot (Sandbox.name requestId nanoseconds number)) :
    Orderly m config requests made initial W S' (w.set i s ⟨S', count⟩) := by
  have hover := hbeside.keeps h.keeps hnone
  refine ⟨hground.perform_createAll hover, hover, fun requestId' nanoseconds' number' hnew ↦ ?_,
    fun _ _ _ _ _ ↦ rfl, fun j ↦ ?_, fun j k payload payload' root work work' hj hk ↦ ?_⟩
  · -- a name that nobody has yet is not the name of this sandbox
    have hne : Sandbox.name requestId nanoseconds number ≠
        Sandbox.name requestId' nanoseconds' number' := fun heq ↦
      absurd (Sandbox.number_eq_of_name_eq heq) (Nat.ne_of_lt (Nat.lt_of_lt_of_le hnumber hnew))
    rw [hbeside.at?_eq h.keeps.tree (not_isPrefix_of_ne hne)]
    exact h.vacant requestId' nanoseconds' number' (Nat.le_trans hcount hnew)
  · by_cases heq : j = i
    · subst heq
      rwa [World.stage_set_self]
    · rw [World.stage_set_of_ne w _ _ heq]
      exact ((h.placed j).of_beside hm hbeside hover (hothers j heq)).mono hcount
  · by_cases hji : j = i
    · by_cases hki : k = i
      · rw [hji, hki]
      · rw [hji, World.stage_set_self] at hj
        rw [World.stage_set_of_ne w _ _ hki] at hk
        exact absurd (hroot payload root work hj) (hothers k hki payload' root work' hk)
    · by_cases hki : k = i
      · rw [hki, World.stage_set_self] at hk
        rw [World.stage_set_of_ne w _ _ hji] at hj
        exact absurd (hroot payload' root work' hk) (hothers j hji payload root work hj)
      · rw [World.stage_set_of_ne w _ _ hji] at hj
        rw [World.stage_set_of_ne w _ _ hki] at hk
        exact h.apart j k payload payload' root work work' hj hk

omit [DecidableEq ι] in
/-- The sandbox of a run has a number that was given already. -/
theorem root_ne (h : Orderly m config requests made initial W S w) {payload : RunRequest}
    {root : String} {work : Work} (hi : w.stage i = .inside payload root work)
    (requestId : String) (nanoseconds : Nat) (hnumber : w.host.sandboxes ≤ number) :
    root ≠ Path.below config.workRoot (Sandbox.name requestId nanoseconds number) := by
  have hplaced := h.placed i
  rw [hi] at hplaced
  cases hplaced with
  | inside hroot hlt _ _ _ =>
    rw [hroot, sandboxPath]
    intro heq
    have hname := Sandbox.below_injective (isPart_sandboxName m (requests i) _)
      (Sandbox.isPart_name requestId nanoseconds number) heq
    exact absurd (Sandbox.number_eq_of_name_eq hname) (Nat.ne_of_lt (Nat.lt_of_lt_of_le hlt hnumber))

section Advance

variable (h : Orderly m config requests made initial W S w) (hm : m.IsLocal)
  (hground : Ground made config.workRoot W c)
  (hvacant : ∀ requestId nanoseconds number,
    made.root.at? (W ++ [Sandbox.name requestId nanoseconds number]) = none)

include h hm hground hvacant

theorem exists_advance_asked
    (hinitial : perform (Files.createAll config.workRoot) initial = (.ok (), made)) (hs : w.stage i = .asked) :
    ∃ S', Orderly m config requests made initial W S' (w.advance m config requests i) := by
  -- what the run comes to from here is what it comes to alone
  have hconforms : ∀ alone, Conforms (sandboxPath m config (requests i) w.host.sandboxes)
      (sandboxPath m config (requests i) alone) (run m config (requests i) w.host).1
      (run m config (requests i) ⟨initial, alone⟩).1 :=
    fun alone ↦ conforms_run hm hground h.settles h.keeps (h.vacant _ _ _ (Nat.le_refl _)) hinitial
      hground.over_self (hvacant _ _ _)
  rw [run_eq _ _ _ w.host, next_asked] at hconforms
  rw [World.advance, hs, next_asked]
  cases hpayload : ((requests i).parsePayload : Except RemoteError RunRequest) with
  | error e =>
    rw [hpayload] at hconforms
    exact ⟨S, h.set_answered hground (.inl rfl) (Nat.le_refl _) (.answered _ hconforms)⟩
  | ok payload =>
    rw [hpayload] at hconforms
    dsimp only at hconforms ⊢
    rw [h.settles] at hconforms ⊢
    dsimp only at hconforms ⊢
    cases hmade : S.withDirectory (sandboxPath m config (requests i) w.host.sandboxes) with
    | error fault =>
      rw [hmade] at hconforms
      exact ⟨S, h.set_answered hground (.inr rfl) (Nat.le_succ _) (.answered _ hconforms)⟩
    | ok S' =>
      rw [hmade] at hconforms
      dsimp only at hconforms
      rw [Stage.complete_inside] at hconforms
      obtain ⟨hhoused, hbeside⟩ := Sandbox.housed_of_withDirectory hground h.keeps
        (isPart_sandboxName m (requests i) w.host.sandboxes)
        (nul_not_mem_sandboxName m (requests i) w.host.sandboxes)
        (h.vacant _ _ _ (Nat.le_refl _)) hmade
      refine ⟨S', h.set_of_beside hm hground hbeside (hvacant _ _ _) (Nat.lt_succ_self _)
        (Nat.le_succ _) (fun j _ payload root work hj ↦ h.root_ne hj _ _ (Nat.le_refl _))
        (.inside rfl (Nat.lt_succ_self _) hhoused (fun _ ↦ rfl) hconforms) ?_⟩
      rintro _ _ _ ⟨⟩
      rfl

theorem exists_advance_inside {payload : RunRequest} {root : String} {work : Work}
    (hs : w.stage i = .inside payload root work) :
    ∃ S', Orderly m config requests made initial W S' (w.advance m config requests i) := by
  have hfiles := h.settled i payload root work hs
  have hplaced := h.placed i
  rw [hs] at hplaced
  rw [World.advance, hs]
  cases hplaced with
  | @inside _ _ _ number n hroot hnumber hhoused hbegun hconforms =>
    have hothers : ∀ j, j ≠ i → ∀ payload root work, w.stage j = .inside payload root work →
        root ≠ Path.below config.workRoot (Sandbox.name (requests i).requestId
          (m.nanoseconds number) number) := by
      rintro j hj payload' root' work' hstage heq
      rw [heq.trans hroot.symm] at hstage
      exact hj (h.apart j i payload' payload root work' work hstage hs)
    have hgo : ∀ {S' : Files} {s : Stage},
        Beside (W ++ [sandboxName m (requests i) number]) S S' →
        Placed m config (requests i) made initial W S' w.host.sandboxes s →
        (∀ payload root' work, s = .inside payload root' work → root' = root) →
        Orderly m config requests made initial W S' (w.set i s ⟨S', w.host.sandboxes⟩) :=
      fun hbeside hself hsame ↦ h.set_of_beside hm hground hbeside (hvacant _ _ _) hnumber
        (Nat.le_refl _) hothers hself fun payload root' work heq ↦
          (hsame payload root' work heq).trans hroot
    by_cases hwork : ∃ answer, work = .finished answer
    · -- the sandbox is left
      obtain ⟨answer, rfl⟩ := hwork
      rw [Work.complete, hroot] at hconforms
      have hanswered : ∀ {S'}, Placed m config (requests i) made initial W S' w.host.sandboxes
          (.answered answer) := fun {_} ↦ .answered number hconforms
      rw [Stage.next, hfiles, leave]
      dsimp only
      by_cases hkeep : config.keepSandboxes = true
      · rw [if_pos hkeep]
        exact ⟨S, h.set_answered hground (.inr rfl) (Nat.le_refl _) hanswered⟩
      rw [if_neg hkeep, Sandbox.remove,
        hhoused.plot.perform_removeAll hhoused.keeps hhoused.at?_eq hhoused.isDirectory]
      split
      · exact ⟨_, hgo (beside_erase hhoused) hanswered fun _ _ _ h ↦ by cases h⟩
      · exact ⟨S, h.set_answered hground (.inr rfl) (Nat.le_refl _) hanswered⟩
    · have hwork' : ∀ answer, work ≠ .finished answer := fun answer heq ↦ hwork ⟨answer, heq⟩
      obtain ⟨k, hleaves⟩ := @exists_leaves_next root m config payload S made W _ n hm hhoused work
        hbegun
      rw [Stage.next_inside work w.host hwork', hfiles]
      refine ⟨_, hgo (beside_of_leaves hhoused hleaves) (.inside hroot hnumber
        (hhoused.of_leaves hleaves) (fun hno ↦ absurd hno (Work.next_ne_begun work S hwork')) ?_) ?_⟩
      · rw [Work.complete_next]
        exact hconforms
      · rintro _ _ _ ⟨⟩
        rfl

/-- **Whoever takes the next step, the worker stays orderly.** -/
theorem exists_advance
    (hinitial : perform (Files.createAll config.workRoot) initial = (.ok (), made)) (i : ι) :
    ∃ S', Orderly m config requests made initial W S' (w.advance m config requests i) := by
  cases hs : w.stage i with
  | asked => exact h.exists_advance_asked hm hground hvacant hinitial hs
  | inside payload root work => exact h.exists_advance_inside hm hground hvacant hs
  | answered answer =>
    refine ⟨S, ?_⟩
    rw [World.advance, hs, Stage.next, ← hs]
    dsimp only
    rw [World.set_self]
    exact h

end Advance

omit [DecidableEq ι] in
/-- Before the first step a worker is orderly, if the work root can be made. -/
theorem start {host : Host} (hground : Ground made config.workRoot W c)
    (hmade : perform (Files.createAll config.workRoot) host.files = (.ok (), made))
    (hvacant : ∀ requestId nanoseconds number,
      made.root.at? (W ++ [Sandbox.name requestId nanoseconds number]) = none) :
    Orderly m config requests made host.files W made (World.start host) where
  settles := hmade
  keeps := hground.over_self
  vacant requestId nanoseconds number _ := hvacant requestId nanoseconds number
  settled _ _ _ _ := nofun
  placed _ := .asked
  apart _ _ _ _ _ _ _ := nofun

end Orderly

/-! ## A work root that cannot be made -/

section Barred

variable (m : Machine) (config : WorkerConfig) (request : Request)

/-- A run among others stands so that it got no sandbox. -/
inductive Denied : Stage → Prop
  | asked : Denied .asked
  | refused {e : RemoteError} (h : (request.parsePayload : Except RemoteError RunRequest) = .error e) :
      Denied (.answered (.ok (.error e)))
  | notCreated {payload : RunRequest} (h : request.parsePayload = .ok payload) (number : Nat)
      (fault : Files.Fault) :
      Denied (.answered (.ok (.error (notCreated (sandboxPath m config request number) fault))))

end Barred

/-- A worker with runs at all stages, where the work root cannot be made: what there is of it was made
with the first attempt. -/
structure Barred (m : Machine) (config : WorkerConfig) (requests : ι → Request) (initial made : Files)
    (w : World ι) : Prop where
  files : w.host.files = initial ∨ w.host.files = made
  denied : ∀ i, Denied m config (requests i) (w.stage i)

/-- **Where the work root cannot be made, nobody gets a sandbox.** -/
theorem Barred.advance {fault fault' : Files.Fault} (h : Barred m config requests initial made w)
    (hfirst : perform (Files.createAll config.workRoot) initial = (.error fault, made))
    (hagain : perform (Files.createAll config.workRoot) made = (.error fault', made)) (i : ι) :
    Barred m config requests initial made (w.advance m config requests i) := by
  have hset : ∀ {s : Stage} {host : Host}, host.files = initial ∨ host.files = made →
      Denied m config (requests i) s → Barred m config requests initial made (w.set i s host) := by
    refine fun hfiles hs ↦ ⟨hfiles, fun j ↦ ?_⟩
    by_cases hj : j = i
    · subst hj
      rwa [World.stage_set_self]
    · rw [World.stage_set_of_ne w _ _ hj]
      exact h.denied j
  have hi := h.denied i
  rw [World.advance]
  generalize w.stage i = s at hi
  cases hi with
  | refused hpayload => exact hset h.files (.refused hpayload)
  | notCreated hpayload number fault => exact hset h.files (.notCreated hpayload number fault)
  | asked =>
    rw [next_asked]
    cases hpayload : ((requests i).parsePayload : Except RemoteError RunRequest) with
    | error e => exact hset h.files (.refused hpayload)
    | ok payload =>
      obtain ⟨fault'', hcreate⟩ : ∃ fault'',
          perform (Files.createAll config.workRoot) w.host.files = (.error fault'', made) :=
        h.files.elim (fun heq ↦ ⟨fault, heq ▸ hfirst⟩) fun heq ↦ ⟨fault', heq ▸ hagain⟩
      dsimp only
      rw [hcreate]
      exact hset (.inr rfl) (.notCreated hpayload _ _)

end Service
end FirmwareLane
