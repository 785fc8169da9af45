import FirmwareLane.Proofs.Files.Relabelling
import FirmwareLane.Proofs.Worker.Sandboxes
import FirmwareLane.Proofs.Worker.Stages

/-!
# Operations in two sandboxes

A command line is taken to do, and to come to, what the directory says that it runs in, wherever that
directory is and whatever it is called (`Machine.IsLocal`).  Then so are operations: in two sandboxes
that differ in identities only they come to the same, but for what clocks say, and what they leave
differs in identities only (`exists_executeFrom_twin`).

`Housed` says what is known of a sandbox while others work beside it: its path leads there, and
nothing in it is seen elsewhere.
-/

set_option autoImplicit false
namespace FirmwareLane

open Sandbox (Over Plot)
open Transfer (Based Owned)

/-! ## Directories that nobody else sees -/

/-- A root leads to a directory in a sound tree, and no file there has a name elsewhere. -/
structure Secluded (fs : Files) (root : String) (R : Place) (n : Node) : Prop where
  based : Based fs root R n
  sound : fs.root.Sound
  owned : ∀ p, Owned fs R n p

/-- All that became of files is that there is another directory at a place, and no file there has a
name elsewhere. -/
structure Leaves (fs fs' : Files) (R : Place) (k : Node) : Prop where
  files_eq : fs' = fs.within R k
  isDirectory : k.isDirectory = true
  sound : k.Sound
  owned : ∀ p, Owned fs' R k p

variable {fs fs' made made' : Files} {root root' name name' : String} {R R' W W' : Place}
  {n n' k : Node}

namespace Secluded

/-- What stands in a directory can take the place of what stood there, if no file in it has an
identity that none had. -/
theorem leaves (h : Secluded fs root R n) (hdir : k.isDirectory = true) (hk : k.Sound)
    (hfiles : ∀ p m b i, i ≠ 0 → k.at? p = some (.file m b i) →
      ∃ p m b, n.at? p = some (.file m b i)) :
    Leaves fs (fs.within R k) R k where
  files_eq := rfl
  isDirectory := hdir
  sound := hk
  owned p m b i hfile hi q m' b' hq := by
    obtain ⟨p', m₀, b₀, hold⟩ := hfiles p m b i hi hfile
    by_contra hout
    have hface := (Node.holds_of_at? h.based.at?_eq).faceAt?_put_outside k hout
    rw [Files.root_within] at hq
    rw [Node.faceAt?_eq_file.2 hq] at hface
    exact hout (h.owned p' m₀ b₀ i hold hi q m' b' (Node.faceAt?_eq_file.1 hface.symm))

theorem leaves_self (h : Secluded fs root R n) : Leaves fs fs R n := by
  have hself := h.leaves h.based.isDirectory (h.based.sound h.sound)
    fun p m b i _ hfile ↦ ⟨p, m, b, hfile⟩
  rwa [h.based.within_self h.sound] at hself

end Secluded

theorem Leaves.trans {fs'' : Files} {k' : Node} (h : Leaves fs fs' R k) (hbased : Based fs root R n)
    (hs : fs.root.Sound) (h' : Leaves fs' fs'' R k') : Leaves fs fs'' R k' where
  files_eq := by rw [h'.files_eq, h.files_eq, hbased.within_within hs h.sound h'.sound]
  isDirectory := h'.isDirectory
  sound := h'.sound
  owned := h'.owned

/-! ## Sandboxes among others -/

/-- A sandbox that was made in files, in which by now there may be others beside it. -/
structure Housed (made fs : Files) (root : String) (W : Place) (name : String) (n : Node) : Prop where
  plot : Plot made root W name
  keeps : Over made fs
  at?_eq : fs.root.at? (W ++ [name]) = some n
  isDirectory : n.isDirectory = true
  owned : ∀ p, Owned fs (W ++ [name]) n p

namespace Housed

variable (h : Housed made fs root W name n)

include h

theorem based : Based fs root (W ++ [name]) n := h.plot.based h.keeps h.at?_eq h.isDirectory

theorem secluded : Secluded fs root (W ++ [name]) n := ⟨h.based, h.keeps.tree, h.owned⟩

theorem sound : n.Sound := h.based.sound h.keeps.tree

/-- A sandbox stays one when there is another directory in its place. -/
theorem of_leaves (hleaves : Leaves fs fs' (W ++ [name]) k) : Housed made fs' root W name k := by
  obtain ⟨rfl, hdir, hk, howned⟩ := hleaves
  exact ⟨h.plot, h.plot.over_within h.keeps hk, (h.plot.holds h.keeps).at?_put k, hdir, howned⟩

end Housed

/-! ## Machines on which directories tell everything -/

/-- Two command lines came to the same, but for what clocks say; and if a clock could not tell how
long the output of one was waited for, none could for the other. -/
structure SameRun (timeout : Nat) (r r' : Run) : Prop where
  ending : r.ending = r'.ending
  stdout : r.stdout = r'.stdout
  stderr : r.stderr = r'.stderr
  told : (deadline timeout r).isOk = (deadline timeout r').isOk

/-- What a command line comes to, and what it does, is told by the directory that it runs in, and it
changes nothing else. -/
def Machine.IsLocal (m : Machine) : Prop :=
  ∀ index timeout commandLine fs fs' root root' R R' n n',
    Secluded fs root R n → Secluded fs' root' R' n' → n.Relabelled n' →
    ∃ k k', k.Relabelled k' ∧
      Leaves fs (m.run index root timeout commandLine fs).2 R k ∧
      Leaves fs' (m.run index root' timeout commandLine fs').2 R' k' ∧
      SameRun timeout (m.run index root timeout commandLine fs).1
        (m.run index root' timeout commandLine fs').1

/-! ## What is left of reports without clocks -/

/-- A report without what clocks said. -/
def Report.unclocked (r : Report) : Report :=
  { r with startedAt := r.startedAt.map fun _ ↦ ⟨0, 0⟩, durationMs := 0 }

namespace Pipeline

/-- An outcome without what clocks said. -/
def Outcome.unclocked (o : Outcome) : Outcome := ⟨o.diagnostics, o.reports.map Report.unclocked⟩

theorem Outcome.unclocked_followedBy (o more : Outcome) :
    (o.followedBy more).unclocked = o.unclocked.followedBy more.unclocked :=
  congrArg (Outcome.mk _) List.map_append

variable {m : Machine} {index timeout : Nat} {operation : Operation} {rest : List Operation}
  {report report' : Report}

theorem leftAfter_of_unclocked (h : report.unclocked = report'.unclocked) :
    leftAfter report rest = leftAfter report' rest := by
  have hstatus : report.status = report'.status := (congrArg Report.status h :)
  rw [leftAfter, leftAfter, hstatus]

theorem unclocked_outcomeOf (h : report.unclocked = report'.unclocked) :
    (outcomeOf timeout report rest).unclocked = (outcomeOf timeout report' rest).unclocked := by
  have hstatus : report.status = report'.status := (congrArg Report.status h :)
  have hindex : report.index = report'.index := (congrArg Report.index h :)
  -- the description of a failure tells no time
  have hdescribe : describeFailure timeout report = describeFailure timeout report' :=
    (congrArg (describeFailure timeout) h :)
  rw [outcomeOf, outcomeOf, hstatus, hindex, hdescribe]
  split
  · exact congrArg (fun r ↦ Outcome.mk none [r]) h
  · exact congrArg (fun r ↦ Outcome.mk _ (r :: _)) h

theorem unclocked_reportOf {r r' : Run} (h : SameRun timeout r r') :
    (reportOf index operation r).unclocked = (reportOf index operation r').unclocked := by
  have hstatus : status r.ending = status r'.ending := congrArg status h.ending
  have hcode : exitCode? r.ending = exitCode? r'.ending := congrArg exitCode? h.ending
  have hout : outputText r = outputText r' := by rw [outputText, outputText, h.ending, h.stdout]
  have herr : errorText r = errorText r' := by rw [errorText, errorText, h.ending, h.stderr]
  rw [reportOf, reportOf, Report.unclocked, Report.unclocked, hstatus, hcode, hout, herr]
  rfl

end Pipeline

/-! ## Resetting -/

namespace Node

theorem lookup_entries_withModes (m : Nat) (n : Node) (name : String) :
    (n.withModes m).entries.lookup name = (n.entries.lookup name).map (withModes m) ∨
      (n.withModes m).entries.lookup name = n.entries.lookup name := by
  cases n with
  | file k b i => exact .inr rfl
  | link target => exact .inr rfl
  | device d => exact .inr rfl
  | directory k es =>
    rw [withModes]
    split
    · left
      rw [entries, entriesWithModes_eq_map, Keyed.lookup_map]
      rfl
    · exact .inr rfl

/-- Other permissions give no file an identity. -/
theorem exists_of_at?_withModes {m k : Nat} {p : Place} {b : Text.Bytes} {i : Nat} {n : Node}
    (h : (n.withModes m).at? p = some (.file k b i)) : ∃ k b, n.at? p = some (.file k b i) := by
  induction p generalizing n with
  | nil =>
    have hfile : n.withModes m = .file k b i := Option.some.inj h
    cases n with
    | file k' b' i' =>
      obtain ⟨-, -, rfl⟩ := Node.file.inj hfile
      exact ⟨k', b', rfl⟩
    | link target => exact nomatch hfile
    | device d => exact nomatch hfile
    | directory k' es => exact nomatch hfile
  | cons name rest ih =>
    rw [at?, Option.bind_eq_some_iff] at h
    obtain ⟨c, hc, hrest⟩ := h
    rcases lookup_entries_withModes m n name with hmap | hsame
    · rw [hmap, Option.map_eq_some_iff] at hc
      obtain ⟨old, hold, rfl⟩ := hc
      obtain ⟨k', b', hfile⟩ := ih hrest
      exact ⟨k', b', by rw [at?, hold]; exact hfile⟩
    · rw [hsame] at hc
      exact ⟨k, b, by rw [at?, hc]; exact hrest⟩

end Node

namespace Pipeline

variable {m : Machine} {index timeout : Nat} {operation : Operation}

theorem leaves_resetModes (h : Secluded fs root R n) :
    Leaves fs (resetModes root fs) R (n.withModes Node.directoryMode) := by
  have hreset : resetModes root fs = fs.within R (n.withModes Node.directoryMode) := by
    rw [resetModes, Files.present_eq_ok.2 h.based.find_eq]
    rfl
  rw [hreset]
  refine h.leaves ?_ ((h.based.sound h.sound).withModes _) fun p m b i _ hfile ↦ ?_
  · rw [Node.isDirectory_withModes, h.based.isDirectory]
  · obtain ⟨m', b', hold⟩ := Node.exists_of_at?_withModes hfile
    exact ⟨p, m', b', hold⟩

/-! ## Operations -/

theorem told_shell {p : Pipeline} {interpreter : Interpreter} {commandLine : String} {fs : Files} :
    Told m p index (.shell interpreter commandLine) fs ↔
      (isDrained (m.run index p.root p.timeout commandLine fs).1.ending = true →
        (deadline p.timeout (m.run index p.root p.timeout commandLine fs).1).isOk = true) := by
  have hdeadline : ∀ r : Run, (deadline p.timeout r).isOk = true ↔
      (r.clock + max (p.timeout - r.elapsed) drainGrace) / 1000 < Nat.pow 2 63 := by
    intro r
    rw [deadline]
    split
    · next hlt => exact iff_of_true rfl hlt
    · next hle => exact iff_of_false (fun h ↦ by cases h) hle
  rw [hdeadline]
  constructor
  · exact fun h ↦ h interpreter commandLine rfl
  · rintro h _ _ ⟨⟩
    exact h

/-- **An operation does, and comes to, what the directory of its pipeline says.** -/
theorem exists_carryOut_twin (hm : m.IsLocal) (h : Secluded fs root R n)
    (h' : Secluded fs' root' R' n') (hn : n.Relabelled n') (index timeout : Nat)
    (operation : Operation) :
    ∃ k k', k.Relabelled k' ∧
      Leaves fs (carryOut m ⟨root, timeout⟩ index operation fs).2 R k ∧
      Leaves fs' (carryOut m ⟨root', timeout⟩ index operation fs').2 R' k' ∧
      (carryOut m ⟨root, timeout⟩ index operation fs).1.map Report.unclocked =
        (carryOut m ⟨root', timeout⟩ index operation fs').1.map Report.unclocked := by
  cases operation with
  | reset =>
    exact ⟨_, _, hn.withModes (h.based.sound h.sound) _, leaves_resetModes h, leaves_resetModes h',
      rfl⟩
  | shell interpreter commandLine =>
    obtain ⟨k, k', hk, hleaves, hleaves', hsame⟩ :=
      hm index timeout commandLine fs fs' root root' R R' n n' h h' hn
    have htold : Told m ⟨root', timeout⟩ index (.shell interpreter commandLine) fs' ↔
        Told m ⟨root, timeout⟩ index (.shell interpreter commandLine) fs := by
      rw [told_shell, told_shell]
      dsimp only
      rw [hsame.ending, hsame.told]
    by_cases ht : Told m ⟨root, timeout⟩ index (.shell interpreter commandLine) fs
    · rw [carryOut_of_told ht, carryOut_of_told (htold.2 ht)]
      exact ⟨k, k', hk, hleaves, hleaves', congrArg Except.ok (unclocked_reportOf hsame)⟩
    · rw [carryOut_of_not_told ht, carryOut_of_not_told (mt htold.1 ht)]
      exact ⟨k, k', hk, hleaves, hleaves', rfl⟩

/-- **Operations do, and come to, what the sandbox says.** -/
theorem exists_executeFrom_twin (hm : m.IsLocal) (timeout : Nat) (operations : List Operation)
    (index : Nat) (h : Housed made fs root W name n) (h' : Housed made' fs' root' W' name' n')
    (hn : n.Relabelled n') :
    ∃ k k', k.Relabelled k' ∧
      Leaves fs (executeFrom m ⟨root, timeout⟩ index operations fs).2 (W ++ [name]) k ∧
      Leaves fs' (executeFrom m ⟨root', timeout⟩ index operations fs').2 (W' ++ [name']) k' ∧
      (executeFrom m ⟨root, timeout⟩ index operations fs).1.map Outcome.unclocked =
        (executeFrom m ⟨root', timeout⟩ index operations fs').1.map Outcome.unclocked := by
  induction operations generalizing index fs fs' n n' with
  | nil => exact ⟨n, n', hn, h.secluded.leaves_self, h'.secluded.leaves_self, rfl⟩
  | cons operation rest ih =>
    obtain ⟨k, k', hk, hleaves, hleaves', hsame⟩ :=
      exists_carryOut_twin hm h.secluded h'.secluded hn index timeout operation
    rw [executeFrom_cons, executeFrom_cons]
    generalize carryOut m ⟨root, timeout⟩ index operation fs = x at hleaves hsame ⊢
    generalize carryOut m ⟨root', timeout⟩ index operation fs' = x' at hleaves' hsame ⊢
    obtain ⟨x, fs₁⟩ := x
    obtain ⟨x', fs₁'⟩ := x'
    rcases Outcome.map_eq_map hsame with ⟨crash, rfl, rfl⟩ | ⟨report, report', rfl, rfl, hreport⟩
    · exact ⟨k, k', hk, hleaves, hleaves', rfl⟩
    have hhoused := h.of_leaves hleaves
    have hhoused' := h'.of_leaves hleaves'
    obtain ⟨l, l', hl, hmore, hmore', hrest⟩ : ∃ l l', l.Relabelled l' ∧
        Leaves fs₁ (executeFrom m ⟨root, timeout⟩ (index + 1) (leftAfter report rest) fs₁).2
          (W ++ [name]) l ∧
        Leaves fs₁' (executeFrom m ⟨root', timeout⟩ (index + 1) (leftAfter report rest) fs₁').2
          (W' ++ [name']) l' ∧
        (executeFrom m ⟨root, timeout⟩ (index + 1) (leftAfter report rest) fs₁).1.map
            Outcome.unclocked =
          (executeFrom m ⟨root', timeout⟩ (index + 1) (leftAfter report rest) fs₁').1.map
            Outcome.unclocked := by
      rw [leftAfter]
      split
      · exact ih (index + 1) hhoused hhoused' hk
      · exact ⟨k, k', hk, hhoused.secluded.leaves_self, hhoused'.secluded.leaves_self, rfl⟩
    refine ⟨l, l', hl, ?_⟩
    dsimp only
    rw [← leftAfter_of_unclocked hreport]
    generalize executeFrom m ⟨root, timeout⟩ (index + 1) (leftAfter report rest) fs₁ = y
      at hmore hrest ⊢
    generalize executeFrom m ⟨root', timeout⟩ (index + 1) (leftAfter report rest) fs₁' = y'
      at hmore' hrest ⊢
    obtain ⟨y, fs₂⟩ := y
    obtain ⟨y', fs₂'⟩ := y'
    replace hmore := hleaves.trans h.based h.keeps.tree hmore
    replace hmore' := hleaves'.trans h'.based h'.keeps.tree hmore'
    rcases Outcome.map_eq_map hrest with ⟨crash, rfl, rfl⟩ | ⟨more, more', rfl, rfl, heq⟩
    · exact ⟨hmore, hmore', rfl⟩
    · refine ⟨hmore, hmore', congrArg Except.ok ?_⟩
      rw [Outcome.unclocked_followedBy, Outcome.unclocked_followedBy, unclocked_outcomeOf hreport,
        heq]

end Pipeline
end FirmwareLane
