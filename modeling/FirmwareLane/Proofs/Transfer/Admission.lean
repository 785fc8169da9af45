import FirmwareLane.Proofs.Transfer.Recording
import FirmwareLane.Proofs.Transfer.Restoring

/-!
# Paths that a snapshot admits

Three checks stand between a path and a file.  A path is brought into normal form, it is looked at
as a text when an entry is added to a snapshot, and it is looked at by its components when it is
joined to a root.  None of them knows of the others.

They agree: what the second one lets pass, the third one lets pass too
(`exists_names_of_isContained`), and so the third one never speaks up, whatever the snapshot and
whatever the root.  Restoring fails only where the file system refuses (`fault_of_restore`).
-/

set_option autoImplicit false
namespace FirmwareLane

open Action (perform perform_bind)

namespace Snapshot

variable {e : Entry}

/-- An entry whose path does not stay below the root is not added. -/
theorem insert_of_not_isContained (h : Path.isContained e.normalized.path ≠ true) (s : Snapshot) :
    s.insert e = .error (.escapesRoot e.normalized.path) := by
  have hperform : ((Catalogue.insert e).perform s.catalogue).1 =
      .error (.escapesRoot e.normalized.path) := by
    rw [Catalogue.perform_insert, if_neg h]
  rw [insert, after, hperform]
  rfl

/-- Nor is it put in the place of another, as no entry is under such a path. -/
theorem upsert_of_not_isContained (h : Path.isContained e.normalized.path ≠ true) (s : Snapshot) :
    s.upsert e = .error (.escapesRoot e.normalized.path) := by
  have hlookup : s.catalogue.positions.lookup e.normalized.path = none := by
    by_contra hsome
    obtain ⟨i, hi⟩ := Option.ne_none_iff_exists'.1 hsome
    have hmem := List.mem_of_getElem? ((s.consistent.lookup_iff _ i).1 hi)
    exact h (s.consistent.admitted _ hmem).2
  have hperform : ((Catalogue.upsert e).perform s.catalogue).1 =
      .error (.escapesRoot e.normalized.path) := by
    rw [Catalogue.perform_upsert, hlookup]
    dsimp only
    rw [Catalogue.perform_insert, if_neg h]
    rfl
  rw [upsert, after, hperform]
  rfl

end Snapshot

namespace Transfer

variable {path root : String} {fs : Files}

/-! ## The checks of a path -/

/-- A normal form that is not empty has no pieces that go nowhere. -/
theorem isProper_of_mem_splitOn (h : Path.normalize path ≠ "") {part : List Char}
    (hpart : part ∈ Text.splitOn '/' (Path.normalize path).toList) :
    part ≠ [] ∧ part ≠ Path.here := by
  have hslash : ∀ p ∈ Path.parts (path.toList.map Path.slashed), '/' ∉ p :=
    fun p hp ↦ Path.not_mem_of_mem_splitOn (List.mem_filter.1 hp).1
  have hne : Path.parts (path.toList.map Path.slashed) ≠ [] := by
    intro hnil
    apply h
    rw [Path.normalize, Path.normalChars, hnil]
    rfl
  rw [Path.normalize, String.toList_ofList, Path.normalChars, Path.splitOn_join hslash hne] at hpart
  exact Path.isProper_iff.1 (List.mem_filter.1 hpart).2

/-- **What is admitted as a text is admitted by its components**, and below any root they follow
those of the root. -/
theorem exists_names_of_isContained (h : Path.isContained (Path.normalize path) = true)
    (root : String) :
    ∃ names : List (List Char), names ≠ [] ∧
      Path.components (Path.normalize path).toList = names.map .name ∧
      Path.belowOnly? root (Path.normalize path) = some (Path.below root (Path.normalize path)) ∧
      Path.components (Path.below root (Path.normalize path)).toList =
        Path.components root.toList ++ names.map .name := by
  obtain ⟨p, hne, hp, hpath⟩ := exists_place_of_isAdmitted ⟨Path.normalize_normalize path, h⟩
  rw [← hpath]
  have hstart : Path.start (relative p).toList = [] := by
    rw [toList_relative, Path.start_join hp.slash_not_mem hp.isProper]
  refine ⟨p.map String.toList, mt List.map_eq_nil_iff.1 hne, components_relative hp,
    belowOnly?_relative hp root, ?_⟩
  rw [Path.components_below hstart, components_relative hp]

/-! ## The faults of restoring -/

theorem fault_of_describing {α : Type} {action : Files.Action Files.Fault α} {fault : Fault}
    (h : (perform (Files.describing (Fault.files path) action) fs).1 = .error fault) :
    ∃ refusal, fault = .files path refusal := by
  rw [Files.describing, Action.perform_adapt] at h
  cases hresult : (perform action fs).1 with
  | ok a => rw [hresult] at h; cases h
  | error refusal => rw [hresult] at h; exact ⟨refusal, (Except.error.inj h).symm⟩

theorem fault_of_restoreEntry {e : Entry} (he : Path.IsAdmitted e.path) {fault : Fault}
    (h : (perform (restoreEntry root e) fs).1 = .error fault) :
    ∃ target refusal, fault = .files target refusal := by
  obtain ⟨p, -, hp, hpath⟩ := exists_place_of_isAdmitted he
  have htarget := belowOnly?_relative hp root
  rw [hpath] at htarget
  rw [restoreEntry, htarget] at h
  dsimp only at h
  split at h
  · next parent _ =>
    rw [perform_bind] at h
    split at h
    · exact ⟨_, fault_of_describing h⟩
    · next refusal made heq =>
      obtain rfl : refusal = fault := Except.error.inj h
      exact ⟨parent, fault_of_describing (congrArg Prod.fst heq)⟩
  · exact ⟨_, fault_of_describing h⟩

theorem fault_of_entries {entries : List Entry} (he : ∀ e ∈ entries, Path.IsAdmitted e.path)
    {fault : Fault} (h : (perform (entries.forM (restoreEntry root)) fs).1 = .error fault) :
    ∃ target refusal, fault = .files target refusal := by
  induction entries generalizing fs with
  | nil => exact nomatch h
  | cons e rest ih =>
    rw [Action.perform_forM_cons, perform_bind] at h
    split at h
    · exact ih (fun d hd ↦ he d (List.mem_cons_of_mem e hd)) h
    · next refusal made heq =>
      obtain rfl : refusal = fault := Except.error.inj h
      exact fault_of_restoreEntry (he e List.mem_cons_self) (congrArg Prod.fst heq)

/-- **Restoring a snapshot fails only where the file system refuses.** -/
theorem fault_of_restore {s : Snapshot} {fault : Fault}
    (h : (perform (restore root s) fs).1 = .error fault) :
    ∃ target refusal, fault = .files target refusal := by
  rw [restore, perform_bind] at h
  split at h
  · exact fault_of_entries (fun e he ↦ s.admitted he) h
  · next refusal made heq =>
    obtain rfl : refusal = fault := Except.error.inj h
    exact ⟨root, fault_of_describing (congrArg Prod.fst heq)⟩

/-! ## The checks agree -/

/-- **The three checks of a path agree.**  The normal form is reached in one step, has no backslash
and no part that goes nowhere.  If it is admitted as a text, each of its components is a name, so it
can be joined to any root, and comes strictly below it.  A path that could not be joined is
therefore refused by every snapshot, and restoring a snapshot never finds one. -/
theorem path_checks_agree (path root : String) :
    Path.normalize (Path.normalize path) = Path.normalize path ∧
      '\\' ∉ (Path.normalize path).toList ∧
      (Path.normalize path ≠ "" → ∀ part ∈ Text.splitOn '/' (Path.normalize path).toList,
        part ≠ [] ∧ part ≠ Path.here) ∧
      (Path.isContained (Path.normalize path) = true →
        ∃ names : List (List Char), names ≠ [] ∧
          Path.components (Path.normalize path).toList = names.map .name ∧
          Path.belowOnly? root (Path.normalize path) =
            some (Path.below root (Path.normalize path)) ∧
          Path.components (Path.below root (Path.normalize path)).toList =
            Path.components root.toList ++ names.map .name) ∧
      (Path.belowOnly? root (Path.normalize path) = none →
        ∀ (s : Snapshot) (content : Content),
          s.insert ⟨path, content⟩ = .error (.escapesRoot (Path.normalize path)) ∧
          s.upsert ⟨path, content⟩ = .error (.escapesRoot (Path.normalize path))) ∧
      ∀ (s : Snapshot) (fs : Files) (escaping : String),
        (perform (restore root s) fs).1 ≠ .error (.escapesRoot escaping) := by
  have hbackslash : '\\' ∉ (Path.normalize path).toList := by
    rw [Path.normalize, String.toList_ofList]
    exact Path.backslash_not_mem_normalChars _
  refine ⟨Path.normalize_normalize path, hbackslash,
    fun h part hpart ↦ isProper_of_mem_splitOn h hpart,
    fun h ↦ exists_names_of_isContained h root, fun hnone s content ↦ ?_, fun s fs escaping h ↦ ?_⟩
  · have hcontained : Path.isContained (Path.normalize path) ≠ true := by
      intro h
      obtain ⟨names, -, -, hjoined, -⟩ := exists_names_of_isContained h root
      cases hnone.symm.trans hjoined
    exact ⟨Snapshot.insert_of_not_isContained (e := ⟨path, content⟩) hcontained s,
      Snapshot.upsert_of_not_isContained (e := ⟨path, content⟩) hcontained s⟩
  · obtain ⟨target, refusal, hfault⟩ := fault_of_restore h
    cases hfault

/-- One path is brought into normal form and joined to a root, another one is refused. -/
theorem path_checks_agree_of_dotted :
    Path.isContained (Path.normalize ".\\src//./a.c") = true ∧
      Path.belowOnly? "out/" (Path.normalize ".\\src//./a.c") = some "out/src/a.c" ∧
      (∃ names : List (List Char), names ≠ [] ∧
        Path.components "out/src/a.c".toList = .name "out".toList :: names.map .name) ∧
      Path.belowOnly? "out/" (Path.normalize "src\\..\\a.c") = none ∧
      Snapshot.empty.insert ⟨"src\\..\\a.c", .text "a"⟩ = .error (.escapesRoot "src/../a.c") := by
  have hnormal : Path.normalize ".\\src//./a.c" = "src/a.c" := by decide +kernel
  have hcontained : Path.isContained (Path.normalize ".\\src//./a.c") = true := by decide +kernel
  obtain ⟨-, -, -, hadmitted, -, -⟩ := path_checks_agree ".\\src//./a.c" "out/"
  obtain ⟨names, hne, -, hjoined, hbelow⟩ := hadmitted hcontained
  have htarget : Path.below "out/" "src/a.c" = "out/src/a.c" := by decide +kernel
  have hroot : Path.components "out/".toList = [.name "out".toList] := by decide +kernel
  rw [hnormal, htarget] at hjoined hbelow
  rw [hroot] at hbelow
  have hrefused : Path.normalize "src\\..\\a.c" = "src/../a.c" := by decide +kernel
  obtain ⟨-, -, -, -, hescaping, -⟩ := path_checks_agree "src\\..\\a.c" "out/"
  have hnone : Path.belowOnly? "out/" (Path.normalize "src\\..\\a.c") = none := by decide +kernel
  have hinsert := (hescaping hnone .empty (.text "a")).1
  rw [hrefused] at hinsert
  exact ⟨hcontained, hnormal ▸ hjoined, ⟨names, hne, hbelow⟩, hnone, hinsert⟩

/-- A drive is seen behind a dot. -/
example : Path.isContained (Path.normalize "./C:/a.c") = false := by decide +kernel

end Transfer
end FirmwareLane
