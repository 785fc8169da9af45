import FirmwareLane.Proofs.Snapshot.Overlay

/-!
# From the steps of drafting to the request

A draft is told by its steps: for the extensions, the folder and the selection the last step that
says something about them counts, the made up files and the operations add up in the order of the
steps, and that only modified files are wanted stays said (`ofSteps_eq`).

The draft is finished with the capture of the selected files.  A captured entry keeps its place, and
its content unless a file was made up under its path; the made up files under other paths come
behind, in the order in which their paths first came.  Of several files made up under one path,
however it is spelled, the last one counts (`Snapshot.entries_overlay`).
-/

set_option autoImplicit false
namespace FirmwareLane

/-! ## Entries in their order -/

namespace Snapshot

open Draft (overlay)

variable {s t : Snapshot} {es : List Entry}

/-- The last of some entries under a path. -/
def lastUnder (es : List Entry) (path : String) : Option Entry :=
  (es.map Entry.normalized).reverse.find? (·.path == path)

/-- The paths of some entries that a snapshot does not have, in the order in which they first come. -/
def newPaths (s : Snapshot) (es : List Entry) : List String :=
  ((es.map fun e ↦ e.normalized.path).filter (· ∉ s.paths)).eraseDups

theorem filterMap_get?_paths (s : Snapshot) : s.paths.filterMap s.get? = s.entries := by
  change (s.entries.map Entry.path).filterMap s.get? = s.entries
  rw [List.filterMap_map]
  refine (List.filterMap_congr fun e he ↦ ?_).trans List.filterMap_some
  exact get?_eq_some.2 ⟨he, rfl⟩

/-- **The entries after laying others over a snapshot**: its own, each as the last of the others
under its path if there is one, and then the last ones under new paths. -/
theorem entries_overlay (h : overlay s es = .ok t) :
    t.entries = (s.entries.map fun e ↦ (lastUnder es e.path).getD e) ++
      (s.newPaths es).filterMap (lastUnder es) := by
  rw [← filterMap_get?_paths t, paths_overlay h, List.filterMap_append]
  congr 1
  · change (s.entries.map Entry.path).filterMap t.get? = _
    rw [List.filterMap_map, ← List.filterMap_eq_map]
    refine List.filterMap_congr fun e he ↦ ?_
    change t.get? e.path = some ((lastUnder es e.path).getD e)
    rw [get?_overlay h, get?_eq_some.2 ⟨he, rfl⟩]
    change (lastUnder es e.path).or (some e) = _
    cases lastUnder es e.path <;> rfl
  · refine List.filterMap_congr fun path hpath ↦ ?_
    have hnew : path ∉ s.paths := by
      simpa using List.of_mem_filter (List.mem_eraseDups.1 hpath)
    rw [get?_overlay h, get?_eq_none.2 hnew, Option.or_none]
    rfl

end Snapshot

namespace Draft

open Snapshot (lastUnder newPaths)

/-! ## What the steps say -/

namespace Step

/-- The extensions that a step names. -/
def table? : Step → Option Classification
  | .extensions table => some table
  | _ => none

/-- The folder that a step names. -/
def root? : Step → Option String
  | .root path => some path
  | _ => none

/-- The selection that a step makes. -/
def selection? : Step → Option Selection
  | .allRegistered => some .allRegistered
  | .files paths => some (.files paths)
  | _ => none

/-- The file that a step makes up. -/
def file? : Step → Option Entry
  | .file e => some e
  | _ => none

/-- The operations that a step adds. -/
def added : Step → List Operation
  | .operations os => os
  | _ => []

/-- Whether a step asks for modified files only. -/
def asksForModified : Step → Bool
  | .modifiedOnly => true
  | _ => false

end Step

theorem ofSteps_concat (steps : List Step) (last : Step) :
    ofSteps (steps ++ [last]) = (ofSteps steps).step last :=
  List.foldl_concat ..

/-- **The draft that steps come to.** -/
theorem ofSteps_eq (steps : List Step) :
    ofSteps steps =
      { extensions := (steps.filterMap Step.table?).getLast?.getD .empty
        root := (steps.filterMap Step.root?).getLast?
        selection := (steps.filterMap Step.selection?).getLast?.getD .nothing
        generated := steps.filterMap Step.file?
        operations := steps.flatMap Step.added
        modifiedOnly := steps.any Step.asksForModified } := by
  induction steps using List.reverseRecOn with
  | nil => rfl
  | append_singleton steps last ih =>
    rw [ofSteps_concat, ih]
    simp only [List.filterMap_append, List.flatMap_append, List.any_append]
    -- what a step says nothing about is left as it is
    cases last <;> simp [step, Step.table?, Step.root?, Step.selection?, Step.file?, Step.added,
      Step.asksForModified]

/-! ## The capture -/

/-- What capturing the selected files comes to. -/
inductive Captures (d : Draft) (fs : Files) (outcome : Except Transfer.Fault Snapshot) : Prop where
  | nothing (selected : d.selection = .nothing) (captured : outcome = .ok .empty)
  | allRegistered (root : String) (selected : d.selection = .allRegistered)
    (below : d.root = some root) (captured : outcome = Transfer.capture fs root d.extensions)
  | files (root : String) (paths : List String) (selected : d.selection = .files paths)
    (below : d.root = some root)
    (captured : outcome = Transfer.captureFiles fs root d.extensions paths)

variable {d : Draft} {fs : Files} {s : Snapshot} {q : RunRequest}

/-- Files are selected, but no folder that they are in. -/
def LacksRoot (d : Draft) : Prop := d.selection ≠ .nothing ∧ d.root = none

theorem Captures.captured_eq {outcome : Except Transfer.Fault Snapshot}
    (h : d.Captures fs outcome) : d.captured fs = outcome.mapError .transfer := by
  cases h with
  | nothing selected captured => rw [Draft.captured, selected, captured]; rfl
  | allRegistered root selected below captured => rw [Draft.captured, selected, below, captured]
  | files root paths selected below captured => rw [Draft.captured, selected, below, captured]

theorem LacksRoot.captured_eq (h : d.LacksRoot) :
    d.captured fs = .error (.invalidRequest "a root folder is required to select files") := by
  obtain ⟨hselected, hroot⟩ := h
  rw [captured, hroot]
  cases hselection : d.selection with
  | nothing => exact absurd hselection hselected
  | allRegistered => rfl
  | files paths => rfl

theorem lacksRoot_or_exists_captures (d : Draft) (fs : Files) :
    d.LacksRoot ∨ ∃ outcome, d.Captures fs outcome := by
  cases hselection : d.selection with
  | nothing => exact .inr ⟨_, .nothing hselection rfl⟩
  | allRegistered =>
    cases hroot : d.root with
    | none => exact .inl ⟨by simp [hselection], hroot⟩
    | some root => exact .inr ⟨_, .allRegistered root hselection hroot rfl⟩
  | files paths =>
    cases hroot : d.root with
    | none => exact .inl ⟨by simp [hselection], hroot⟩
    | some root => exact .inr ⟨_, .files root paths hselection hroot rfl⟩

theorem captured_eq_ok_iff : d.captured fs = .ok s ↔ d.Captures fs (.ok s) := by
  refine ⟨fun h ↦ ?_, fun h ↦ h.captured_eq⟩
  rcases lacksRoot_or_exists_captures d fs with hlacks | ⟨outcome, hcaptures⟩
  · exact nomatch h.symm.trans hlacks.captured_eq
  · exact Outcome.mapError_eq_ok.1 (hcaptures.captured_eq.symm.trans h) ▸ hcaptures

/-- A capture fails for want of a folder, or because of the files. -/
theorem captured_fails_iff :
    (∃ fault, d.captured fs = .error fault) ↔
      d.LacksRoot ∨ ∃ fault, d.Captures fs (.error fault) := by
  constructor
  · rintro ⟨fault, h⟩
    refine (lacksRoot_or_exists_captures d fs).imp_right ?_
    rintro ⟨outcome, hcaptures⟩
    cases outcome with
    | error fault => exact ⟨fault, hcaptures⟩
    | ok s => exact nomatch h.symm.trans hcaptures.captured_eq
  · rintro (hlacks | ⟨fault, hcaptures⟩)
    · exact ⟨_, hlacks.captured_eq⟩
    · exact ⟨_, hcaptures.captured_eq⟩

/-! ## The request -/

theorem finish_eq_ok_iff :
    d.finish fs = .ok q ↔ ∃ s t, d.captured fs = .ok s ∧ overlay s d.generated = .ok t ∧
      q = ⟨d.extensions, t, d.operations, d.modifiedOnly⟩ := by
  rw [finish, Outcome.bind_eq_ok]
  refine exists_congr fun s ↦ ?_
  rw [exists_and_left]
  refine and_congr_right fun _ ↦ ?_
  cases overlay s d.generated with
  | ok t => simp [eq_comm]
  | error r => simp

theorem exists_finish_iff :
    (∃ q, d.finish fs = .ok q) ↔ (∃ s, d.captured fs = .ok s) ∧
      ∀ e ∈ d.generated, Path.isContained e.normalized.path = true := by
  simp only [finish_eq_ok_iff]
  constructor
  · rintro ⟨q, s, t, hcaptured, hoverlay, -⟩
    exact ⟨⟨s, hcaptured⟩, Snapshot.exists_overlay_iff.1 ⟨t, hoverlay⟩⟩
  · rintro ⟨⟨s, hcaptured⟩, hcontained⟩
    obtain ⟨t, hoverlay⟩ := Snapshot.exists_overlay_iff.2 hcontained
    exact ⟨_, s, t, hcaptured, hoverlay, rfl⟩

/-- The request that a draft is finished with, by the entries of its snapshot. -/
theorem finish_eq_ok_iff_entries :
    d.finish fs = .ok q ↔ ∃ s, d.Captures fs (.ok s) ∧
      (∀ e ∈ d.generated, Path.isContained e.normalized.path = true) ∧
      q.snapshot.paths = s.paths ++ s.newPaths d.generated ∧
      q.snapshot.entries = (s.entries.map fun e ↦ (lastUnder d.generated e.path).getD e) ++
        (s.newPaths d.generated).filterMap (lastUnder d.generated) ∧
      q.extensions = d.extensions ∧ q.operations = d.operations ∧
      q.modifiedOnly = d.modifiedOnly := by
  simp only [finish_eq_ok_iff, captured_eq_ok_iff]
  constructor
  · rintro ⟨s, t, hcaptures, hoverlay, rfl⟩
    exact ⟨s, hcaptures, Snapshot.exists_overlay_iff.1 ⟨t, hoverlay⟩,
      Snapshot.paths_overlay hoverlay, Snapshot.entries_overlay hoverlay, rfl, rfl, rfl⟩
  · rintro ⟨s, hcaptures, hcontained, -, hentries, hextensions, hoperations, hmodifiedOnly⟩
    obtain ⟨t, hoverlay⟩ := Snapshot.exists_overlay_iff.2 hcontained
    have hsnapshot : q.snapshot = t :=
      Snapshot.ext (hentries.trans (Snapshot.entries_overlay hoverlay).symm)
    refine ⟨s, t, hcaptures, hoverlay, ?_⟩
    rw [← hextensions, ← hsnapshot, ← hoperations, ← hmodifiedOnly]

/-- A draft cannot be finished for want of a folder, because of the files, or because a made up file
would be outside of the root. -/
theorem finish_fails_iff :
    (∃ fault, d.finish fs = .error fault) ↔
      d.LacksRoot ∨ (∃ fault, d.Captures fs (.error fault)) ∨
        ∃ e ∈ d.generated, Path.isContained e.normalized.path = false := by
  rw [← or_assoc, ← captured_fails_iff, Outcome.exists_error_iff, Outcome.exists_error_iff,
    exists_finish_iff, not_and_or, not_forall₂]
  simp only [exists_prop, Bool.not_eq_true]

/-- **The request that the steps of drafting come to.**  The draft consists of the extensions, the
folder and the selection that were named last, of the made up files and the operations in the order
of the steps, and of whether only modified files are wanted.  In the request, the captured files
keep their order, and their content unless a file was made up under their path; then come the files
that were made up under other paths, in the order in which these paths first came; of the files made
up under one path the last one counts.  There is a request if the folder is named where files are
selected, the capture succeeds and all made up files are below the root, and in no other case. -/
theorem request_of_steps (steps : List Step) (fs : Files) :
    ofSteps steps =
        { extensions := (steps.filterMap Step.table?).getLast?.getD .empty
          root := (steps.filterMap Step.root?).getLast?
          selection := (steps.filterMap Step.selection?).getLast?.getD .nothing
          generated := steps.filterMap Step.file?
          operations := steps.flatMap Step.added
          modifiedOnly := steps.any Step.asksForModified } ∧
      (∀ q, (ofSteps steps).finish fs = .ok q ↔ ∃ s, (ofSteps steps).Captures fs (.ok s) ∧
        (∀ e ∈ (ofSteps steps).generated, Path.isContained e.normalized.path = true) ∧
        q.snapshot.paths = s.paths ++ s.newPaths (ofSteps steps).generated ∧
        q.snapshot.entries =
          (s.entries.map fun e ↦ (lastUnder (ofSteps steps).generated e.path).getD e) ++
            (s.newPaths (ofSteps steps).generated).filterMap
              (lastUnder (ofSteps steps).generated) ∧
        q.extensions = (ofSteps steps).extensions ∧
        q.operations = (ofSteps steps).operations ∧
        q.modifiedOnly = (ofSteps steps).modifiedOnly) ∧
      ((∃ fault, (ofSteps steps).finish fs = .error fault) ↔
        (ofSteps steps).LacksRoot ∨ (∃ fault, (ofSteps steps).Captures fs (.error fault)) ∨
          ∃ e ∈ (ofSteps steps).generated, Path.isContained e.normalized.path = false) :=
  ⟨ofSteps_eq steps, fun _ ↦ finish_eq_ok_iff_entries, finish_fails_iff⟩

/-- A captured file gives way to the one made up under its path, which is spelled otherwise, and of
two files under a new path the last one counts. -/
example :
    ((ofSteps
        [.file ⟨"gen.h", .text "1"⟩, .file ⟨"./b.c", .text "new"⟩, .allRegistered,
          .file ⟨"gen.h", .text "2"⟩, .extensions (.ofList [("c", .text)]), .root "in"]).finish
      ⟨.directory 0o755 [("in", .directory 0o755
        [("b.c", .file 0o644 [98] 0), ("c.c", .file 0o644 [99] 0)])], []⟩).toOption.map
      (·.snapshot.entries) =
        some [⟨"b.c", .text "new"⟩, ⟨"c.c", .text "c"⟩, ⟨"gen.h", .text "2"⟩] := by
  decide +kernel

end Draft
end FirmwareLane
