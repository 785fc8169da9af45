import FirmwareLane.Proofs.Snapshot.Escaping
import FirmwareLane.Proofs.Snapshot.Diff
import FirmwareLane.Proofs.Snapshot.Refinement

/-!
# Which file a path names

A file can be written down in many ways: `a.c`, `./a.c` and `.\a.c` are one.  What adds an entry
takes the normal form of its path first, but what looks for one takes the path as it is written, and
no file stands under a path that is not in normal form (`normalize_of_mem_paths`).  So looking and
adding mean the same file if the path is in normal form, and else only if the file is not there
(`FoundAsWritten`).

`lookup_agrees_iff` says this of the three ways to look (`contains`, `get?`, `remove`), against the
ways to add.
-/

set_option autoImplicit false
namespace FirmwareLane
namespace Snapshot

variable {s t : Snapshot} {e : Entry} {path : String}

/-! ## Looking for a path as it is written -/

theorem contains_iff : s.contains path = true ↔ path ∈ s.paths := s.consistent.contains_iff path

/-- Every path in a snapshot is its own normal form. -/
theorem normalize_of_mem_paths (h : path ∈ s.paths) : Path.normalize path = path :=
  (s.consistent.admitted path h).1

theorem entries_remove (s : Snapshot) (path : String) :
    (s.remove path).2.entries = s.entries.filter (·.path != path) :=
  (Mirrors.remove ⟨s.consistent, rfl⟩ path).state.entries_eq

theorem mem_paths_remove {other : String} :
    other ∈ (s.remove path).2.paths ↔ other ∈ s.paths ∧ other ≠ path := by
  change other ∈ (s.remove path).2.entries.map Entry.path ↔ other ∈ s.entries.map Entry.path ∧ _
  rw [entries_remove]
  simp only [List.mem_map, List.mem_filter, bne_iff_ne]
  constructor
  · rintro ⟨e, ⟨he, hne⟩, rfl⟩
    exact ⟨⟨e, he, rfl⟩, hne⟩
  · rintro ⟨⟨e, he, rfl⟩, hne⟩
    exact ⟨e, ⟨he, hne⟩, rfl⟩

/-- A path that is not in normal form is looked for in vain. -/
theorem lookups_of_normalize_ne (h : Path.normalize path ≠ path) :
    s.contains path = false ∧ s.get? path = none ∧ s.remove path = (none, s) := by
  have hnone : path ∉ s.paths := mt normalize_of_mem_paths h
  have hlookup : s.catalogue.positions.lookup path = none :=
    Option.not_isSome_iff_eq_none.1 (mt contains_iff.1 hnone)
  refine ⟨Bool.eq_false_iff.2 (mt contains_iff.1 hnone), get?_eq_none.2 hnone, ?_⟩
  simp only [remove, Catalogue.remove, hlookup]

/-! ## Adding under the normal form -/

section Adding

variable (h : Path.isContained e.normalized.path = true)

include h

theorem insert_eq_duplicatePath_iff :
    (∃ q, s.insert e = .error (.duplicatePath q)) ↔ e.normalized.path ∈ s.paths := by
  constructor
  · rintro ⟨q, hq⟩
    by_contra hnew
    obtain ⟨t, ht⟩ := exists_insert h hnew
    cases hq.symm.trans ht
  · exact fun hmem ↦ ⟨_, insert_of_contains (contains_iff.2 hmem)⟩

theorem exists_insert_iff : (∃ t, s.insert e = .ok t) ↔ e.normalized.path ∉ s.paths :=
  ⟨fun ⟨_, ht⟩ ↦ (insert_eq_ok.1 ht).2.1, exists_insert h⟩

/-- What gives way to an entry is what stands under the normal form of its path. -/
theorem upsert_replaces_iff {old : Option Entry} :
    (∃ t, s.upsert e = .ok (t, old)) ↔ old = s.get? e.normalized.path := by
  obtain ⟨t, ht⟩ := exists_upsert h s
  constructor
  · rintro ⟨u, hu⟩
    exact (Prod.mk.inj (Except.ok.inj (hu.symm.trans ht))).2
  · rintro rfl
    exact ⟨t, ht⟩

end Adding

/-! ## Both at once -/

/-- A path that is looked for as it would be added: it is in normal form, or its file is not there
in any writing. -/
def FoundAsWritten (s : Snapshot) (path : String) : Prop :=
  Path.normalize path = path ∨ Path.normalize path ∉ s.paths

instance (s : Snapshot) (path : String) : Decidable (s.FoundAsWritten path) :=
  inferInstanceAs (Decidable (_ ∨ _))

theorem mem_paths_iff_foundAsWritten :
    (path ∈ s.paths ↔ Path.normalize path ∈ s.paths) ↔ s.FoundAsWritten path := by
  constructor
  · intro hiff
    by_cases hthere : Path.normalize path ∈ s.paths
    · exact .inl (normalize_of_mem_paths (hiff.2 hthere))
    · exact .inr hthere
  · rintro (hnormal | hnot)
    · rw [hnormal]
    · exact iff_of_false (fun hmem ↦ hnot (by rwa [normalize_of_mem_paths hmem])) hnot

theorem get?_eq_iff_foundAsWritten :
    s.get? path = s.get? (Path.normalize path) ↔ s.FoundAsWritten path := by
  rw [← mem_paths_iff_foundAsWritten]
  constructor
  · intro heq
    exact not_iff_not.1 (by rw [← get?_eq_none, ← get?_eq_none, heq])
  · intro hiff
    by_cases hmem : path ∈ s.paths
    · rw [normalize_of_mem_paths hmem]
    · rw [get?_eq_none.2 hmem, get?_eq_none.2 (mt hiff.2 hmem)]

/-- **Looking and adding mean one file by a path in normal form, and by no other path of a file
that is there.**  Let the normal form of a path lead to a place below the root.  Under the normal
form the three ways to look agree with the ways to add: it is contained exactly if adding an entry
under the path is refused as a duplicate, what is found under it is what gives way to such an entry,
and once it is taken out the entry can be added.  Each of the three holds of the path as it is
written exactly if that is the normal form, or nothing stands under the normal form; where it is
another writing, nothing is found and nothing is taken out. -/
theorem lookup_agrees_iff (s : Snapshot) (path : String) (content : Content)
    (h : Path.isContained (Path.normalize path) = true) :
    ((s.contains (Path.normalize path) = true ↔
        ∃ q, s.insert ⟨path, content⟩ = .error (.duplicatePath q)) ∧
      (∃ t, s.upsert ⟨path, content⟩ = .ok (t, s.get? (Path.normalize path))) ∧
      ∃ t, (s.remove (Path.normalize path)).2.insert ⟨path, content⟩ = .ok t) ∧
    ((s.contains path = true ↔ ∃ q, s.insert ⟨path, content⟩ = .error (.duplicatePath q)) ↔
      s.FoundAsWritten path) ∧
    ((∃ t, s.upsert ⟨path, content⟩ = .ok (t, s.get? path)) ↔ s.FoundAsWritten path) ∧
    ((∃ t, (s.remove path).2.insert ⟨path, content⟩ = .ok t) ↔ s.FoundAsWritten path) ∧
    (Path.normalize path ≠ path →
      s.contains path = false ∧ s.get? path = none ∧ s.remove path = (none, s)) := by
  have hcontained : Path.isContained (Entry.mk path content).normalized.path = true := h
  have hduplicate := insert_eq_duplicatePath_iff (s := s) hcontained
  have hremoved : ∀ other, (∃ t, (s.remove other).2.insert ⟨path, content⟩ = .ok t) ↔
      ¬ (Path.normalize path ∈ s.paths ∧ Path.normalize path ≠ other) := fun other ↦
    (exists_insert_iff hcontained).trans (not_congr mem_paths_remove)
  refine ⟨⟨contains_iff.trans hduplicate.symm, exists_upsert hcontained s, ?_⟩, ?_, ?_, ?_,
    lookups_of_normalize_ne⟩
  · exact (hremoved _).2 fun hother ↦ hother.2 rfl
  · rw [hduplicate, contains_iff]
    exact mem_paths_iff_foundAsWritten
  · rw [upsert_replaces_iff hcontained]
    exact get?_eq_iff_foundAsWritten
  · rw [hremoved, FoundAsWritten]
    tauto

/-- A file that is there is not found where it is written with a point and a backslash, so it cannot
be taken out to make place for an entry that is written so. -/
theorem lookup_agrees_iff_of_spelled :
    ∃ s : Snapshot, ofList [⟨"./a.c", .text "old"⟩] = .ok s ∧
      Path.isContained (Path.normalize ".\\a.c") = true ∧ ¬ s.FoundAsWritten ".\\a.c" ∧
      s.contains "a.c" = true ∧ s.contains ".\\a.c" = false ∧
      (∃ q, s.insert ⟨".\\a.c", .text "new"⟩ = .error (.duplicatePath q)) ∧
      (∃ t, s.upsert ⟨".\\a.c", .text "new"⟩ = .ok (t, some ⟨"a.c", .text "old"⟩)) ∧
      s.get? ".\\a.c" = none ∧
      ¬ ∃ t, (s.remove ".\\a.c").2.insert ⟨".\\a.c", .text "new"⟩ = .ok t := by
  have hcontained : Path.isContained (Path.normalize ".\\a.c") = true := by decide +kernel
  have hnormal : Path.normalize ".\\a.c" = "a.c" := by decide +kernel
  have hother : Path.normalize ".\\a.c" ≠ ".\\a.c" := by decide +kernel
  have hlist : (ofList [⟨"./a.c", .text "old"⟩]).map entries = .ok [⟨"a.c", .text "old"⟩] := by
    decide +kernel
  obtain ⟨s, hs, hentries⟩ := Outcome.map_eq_ok.1 hlist
  have hthere : "a.c" ∈ s.paths := List.mem_map.2 ⟨_, hentries ▸ List.mem_singleton_self _, rfl⟩
  have hfound : s.get? "a.c" = some ⟨"a.c", .text "old"⟩ :=
    get?_eq_some.2 ⟨hentries ▸ List.mem_singleton_self _, rfl⟩
  have hnotFound : ¬ s.FoundAsWritten ".\\a.c" := by
    rintro (heq | hnot)
    · exact hother heq
    · exact hnot (hnormal ▸ hthere)
  obtain ⟨⟨hduplicate, hupsert, -⟩, -, -, hremove, hvain⟩ :=
    lookup_agrees_iff s ".\\a.c" (.text "new") hcontained
  obtain ⟨hcontains, hget, -⟩ := hvain hother
  rw [hnormal] at hduplicate hupsert
  rw [hfound] at hupsert
  exact ⟨s, hs, hcontained, hnotFound, contains_iff.2 hthere, hcontains,
    hduplicate.1 (contains_iff.2 hthere), hupsert, hget, fun h ↦ hnotFound (hremove.1 h)⟩

end Snapshot
end FirmwareLane
