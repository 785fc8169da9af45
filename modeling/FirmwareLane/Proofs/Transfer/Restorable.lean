import FirmwareLane.Proofs.Transfer.Exactness
import FirmwareLane.Proofs.Transfer.Stability

/-!
# Which snapshots are trees

A snapshot admits its paths one by one: each has normal form, stays below the root and differs from
the others.  That does not make a tree of them, as one file may have to stand where another one
needs a directory.

In an empty directory nothing else is in the way.  There an accepted list of entries is restored
exactly if no path in it continues another one behind a slash (`restorable_iff`), in whatever order
they come; a list of two entries that is accepted and never restored is `nested`.
-/

set_option autoImplicit false
namespace FirmwareLane

open Action (perform)

/-! ## The entries of an accepted list -/

namespace Snapshot

theorem Catalogue.entries_of_insertAll {c d : Catalogue} {entries : List Entry}
    (h : (insertAll entries).perform c = (.ok (), d)) :
    d.entries = c.entries ++ entries.map Entry.normalized := by
  induction entries generalizing c with
  | nil =>
    obtain rfl : c = d := (Prod.mk.inj h).2
    exact (List.append_nil _).symm
  | cons e rest ih =>
    rw [insertAll, Action.perform_bind, perform_insert] at h
    split_ifs at h with hcontained hthere
    · cases (Prod.mk.inj h).1
    · rw [ih h, List.append_assoc]
      rfl
    · cases (Prod.mk.inj h).1

/-- A snapshot that is made of a list holds the entries of the list, under the normal forms of their
paths. -/
theorem entries_of_ofList {entries : List Entry} {s : Snapshot} (h : ofList entries = .ok s) :
    s.entries = entries.map Entry.normalized := by
  rw [ofList] at h
  split at h
  · next c hc =>
    obtain rfl := Except.ok.inj h
    rw [Catalogue.ofList] at hc
    rcases hperform : (Catalogue.insertAll entries).perform .empty with ⟨_ | u, d⟩
    · rw [hperform] at hc
      cases hc
    · rw [hperform] at hc
      obtain rfl := Except.ok.inj hc
      exact Catalogue.entries_of_insertAll hperform
  · cases h

end Snapshot

namespace Transfer

open Files (Changeable Searchable)

variable {fs : Files} {root : String} {R p q : Place} {m : Nat} {s : Snapshot}

/-! ## One path behind another -/

/-- The text of a place is continued behind a slash by the texts of the places below it. -/
theorem isPrefix_relative_iff (hp : Parted p) (hq : Parted q) (hne : p ≠ []) :
    (relative p ++ "/").toList <+: (relative q).toList ↔ p <+: q ∧ p ≠ q := by
  rw [String.toList_append]
  constructor
  · rintro ⟨rest, hrest⟩
    have hnames : q = p ++ Path.names rest := by
      have happend := Path.names_append (relative p).toList rest
      rw [names_relative hp] at happend
      rw [← names_relative hq, ← hrest, List.append_assoc]
      exact happend
    refine ⟨⟨_, hnames.symm⟩, ?_⟩
    rintro rfl
    have hlen := congrArg List.length hrest
    simp only [List.length_append] at hlen
    have hslash : "/".toList.length = 1 := rfl
    omega
  · rintro ⟨⟨rest, rfl⟩, hneq⟩
    have hrest : rest ≠ [] := by
      rintro rfl
      exact hneq (List.append_nil p).symm
    refine ⟨(relative rest).toList, ?_⟩
    rw [relative, relative, relative, String.intercalate_append_of_ne_nil hne hrest,
      String.toList_append, String.toList_append]

/-- One entry is below another one, which would have to be a directory. -/
def Below (e d : Entry) : Prop := (d.path ++ "/").toList <+: e.path.toList

theorem below_iff {e d : Entry} (he : Path.IsAdmitted e.path) (hd : Path.IsAdmitted d.path) :
    Below e d ↔ Path.names d.path.toList <+: Path.names e.path.toList ∧
      Path.names d.path.toList ≠ Path.names e.path.toList := by
  obtain ⟨hparted, hne⟩ := parted_names hd
  rw [Below, ← isPrefix_relative_iff hparted (parted_names he).1 hne, relative_names hd,
    relative_names he]

/-- Entries stand apart in a tree exactly if none is below another. -/
theorem pairwise_apart_iff (s : Snapshot) :
    ((placed s.entries).Pairwise fun x y ↦ Apart x.1 y.1) ↔
      ∀ d ∈ s.entries, ∀ e ∈ s.entries, ¬ Below e d := by
  constructor
  · intro hapart d hd e he hbelow
    obtain ⟨hfront, hne⟩ := (below_iff (s.admitted he) (s.admitted hd)).1 hbelow
    have hsymm : Std.Symm fun x y : Place × Content ↦ Apart x.1 y.1 :=
      ⟨fun _ _ h ↦ ⟨h.2, h.1⟩⟩
    have hd' : (Path.names d.path.toList, d.content) ∈ placed s.entries := List.mem_map_of_mem hd
    have he' : (Path.names e.path.toList, e.content) ∈ placed s.entries := List.mem_map_of_mem he
    exact (hapart.forall hd' he' fun heq ↦ hne (congrArg Prod.fst heq)).1 hfront
  · intro hnone
    have hdistinct : (placed s.entries).Pairwise fun x y ↦ x.1 ≠ y.1 := by
      rw [← List.pairwise_map, map_fst_placed]
      exact nodup_placesOf s
    refine hdistinct.imp_of_mem fun {x y} hx hy hne ↦ ?_
    obtain ⟨d, hd, rfl⟩ := List.mem_map.1 hx
    obtain ⟨e, he, rfl⟩ := List.mem_map.1 hy
    have hde := hnone d hd e he
    have hed := hnone e he d hd
    rw [below_iff (s.admitted he) (s.admitted hd)] at hde
    rw [below_iff (s.admitted hd) (s.admitted he)] at hed
    exact ⟨fun hfront ↦ hde ⟨hfront, hne⟩, fun hfront ↦ hed ⟨hfront, hne.symm⟩⟩

/-! ## Empty directories -/

/-- A path leads to an empty directory in which files can be made. -/
def IsVacant (fs : Files) (root : String) : Prop :=
  ∃ R m, fs.find true root = .ok (.present R (.directory m [])) ∧
    (Node.directory m []).allows .write = true ∧ (Node.directory m []).allows .search = true

theorem IsEmptyDirectory.isVacant (h : IsEmptyDirectory fs root) : IsVacant fs root := by
  obtain ⟨R, m, hfind, -, hwrite, hsearch⟩ := h
  exact ⟨R, m, hfind, hwrite, hsearch⟩

theorem faceAt?_empty (hne : p ≠ []) : (Node.directory m []).faceAt? p = none := by
  obtain ⟨name, rest, rfl⟩ := List.exists_cons_of_ne_nil hne
  rfl

/-- Any file fits into an empty directory in which files can be made. -/
theorem fits_empty (hp : Named p) (hne : p ≠ [])
    (hwrite : (Node.directory m []).allows .write = true)
    (hsearch : (Node.directory m []).allows .search = true) : Fits (.directory m []) p where
  named := hp
  way q _ _ := by
    by_cases hq : q = []
    · subst hq
      exact .inr ⟨m, rfl, hsearch⟩
    · exact .inl (faceAt?_empty hq)
  room q name _ hthere _ := by
    obtain rfl : q = [] := by_contra fun hq ↦ hthere (faceAt?_empty hq)
    exact ⟨m, rfl, hwrite, hsearch⟩
  file c hc := nomatch (faceAt?_empty hne).symm.trans hc

theorem eq_of_at?_empty {c : Node} (h : (Node.directory m []).at? p = some c) :
    c = .directory m [] := by
  cases p with
  | nil => exact (Option.some.inj h).symm
  | cons name rest => exact nomatch h

theorem clean_empty (p : Place) : Clean fs R (.directory m []) p where
  unlinked _ _ _ hat := nomatch eq_of_at?_empty hat
  only _ _ _ hat := nomatch eq_of_at?_empty hat
  device _ hat := nomatch eq_of_at?_empty hat

/-- There is room in an empty directory for entries that stand apart, whose names are not too long
and have no null character in them, and whose paths are not too long. -/
theorem room_empty_iff (hbased : Based fs root R (.directory m []))
    (hwrite : (Node.directory m []).allows .write = true)
    (hsearch : (Node.directory m []).allows .search = true)
    (hname : ∀ e ∈ s.entries, ∀ name ∈ Path.names e.path.toList,
      name.utf8ByteSize ≤ Files.greatestName ∧ '\x00' ∉ name.toList)
    (hsize : ∀ e ∈ s.entries, (Path.below root e.path).utf8ByteSize ≤ Files.greatestPath) :
    Room root (.directory m []) (placed s.entries) ↔
      ∀ d ∈ s.entries, ∀ e ∈ s.entries, ¬ Below e d := by
  rw [← pairwise_apart_iff]
  refine ⟨Room.apart, fun hapart ↦ ⟨fun x hx ↦ ?_, fun x hx ↦ ?_, hapart⟩⟩
  · obtain ⟨e, he, rfl⟩ := List.mem_map.1 hx
    have hparted := (parted_names (s.admitted he)).1
    refine hbased.isPath_below hparted (fun name hmem ↦ (hname e he name hmem).2) ?_
    rw [relative_names (s.admitted he)]
    exact hsize e he
  · obtain ⟨e, he, rfl⟩ := List.mem_map.1 hx
    obtain ⟨hparted, hne⟩ := parted_names (s.admitted he)
    refine fits_empty (fun name hmem ↦ ?_) hne hwrite hsearch
    obtain ⟨hshort, hnul⟩ := hname e he name hmem
    obtain ⟨hnonempty, hslash, hhere, habove⟩ := hparted name hmem
    exact ⟨hnonempty, hslash, hnul, hhere, habove, hshort⟩

/-! ## Accepted lists -/

/-- **An accepted list of entries is restored into an empty directory exactly if no path in it is
continued by another one behind a slash.**  The names and the paths have to be such that the file
system takes them. -/
theorem restorable_iff {entries : List Entry} (haccepted : Snapshot.ofList entries = .ok s)
    (hfs : fs.Sound) (hvacant : IsVacant fs root)
    (hname : ∀ e ∈ entries, ∀ name ∈ Path.names (Path.normalize e.path).toList,
      name.utf8ByteSize ≤ Files.greatestName ∧ '\x00' ∉ name.toList)
    (hsize : ∀ e ∈ entries,
      (Path.below root (Path.normalize e.path)).utf8ByteSize ≤ Files.greatestPath) :
    (perform (restore root s) fs).1 = .ok () ↔
      ∀ d ∈ entries, ∀ e ∈ entries,
        ¬ (Path.normalize d.path ++ "/").toList <+: (Path.normalize e.path).toList := by
  obtain ⟨R, m, hfind, hwrite, hsearch⟩ := hvacant
  have hbased : Based fs root R (.directory m []) := ⟨hfs.standing, hfind, rfl⟩
  obtain ⟨n', -, -, -, hok, -⟩ := exists_restore (s := s) hbased hfs.tree fun p _ ↦ clean_empty p
  have hentries := Snapshot.entries_of_ofList haccepted
  rw [hok, room_empty_iff hbased hwrite hsearch, hentries, List.forall_mem_map]
  · exact forall₂_congr fun d _ ↦ List.forall_mem_map
  · rw [hentries, List.forall_mem_map]
    exact hname
  · rw [hentries, List.forall_mem_map]
    exact hsize

/-- Three files in two directories, under paths that are not in normal form. -/
theorem restorable_iff_of_beside :
    ∃ s, Snapshot.ofList [⟨"a/b", .text "x"⟩, ⟨".\\a/b.c", .text "y"⟩, ⟨"a-/b", .binary []⟩] = .ok s ∧
      (perform (restore "out" s) (oneFile "")).1 = .ok () := by
  have hentries : (Snapshot.ofList [⟨"a/b", .text "x"⟩, ⟨".\\a/b.c", .text "y"⟩,
      ⟨"a-/b", .binary []⟩]).map Snapshot.size = .ok 3 := by
    decide +kernel
  obtain ⟨s, haccepted, -⟩ := Outcome.map_eq_ok.1 hentries
  have hfs : (oneFile "").Sound := sound_oneFile (by decide +kernel)
  refine ⟨s, haccepted, (restorable_iff haccepted hfs (isEmptyDirectory_oneFile hfs).isVacant ?_ ?_).2
    ?_⟩
  · decide +kernel
  · decide +kernel
  · decide +kernel

/-- Two entries of which one is a file where the other one needs a directory. -/
def nested : List Entry := [⟨"a", .text "x"⟩, ⟨"a/b", .text "y"⟩]

/-- **Not every accepted list is restored.**  A file and another one below it are both accepted, in
either order, and there is no restoring them. -/
theorem not_restorable_of_nested :
    (oneFile "").Sound ∧ IsVacant (oneFile "") "out" ∧
      (∀ e ∈ nested, ∀ name ∈ Path.names (Path.normalize e.path).toList,
        name.utf8ByteSize ≤ Files.greatestName ∧ '\x00' ∉ name.toList) ∧
      (∀ e ∈ nested,
        (Path.below "out" (Path.normalize e.path)).utf8ByteSize ≤ Files.greatestPath) ∧
      (∃ s, Snapshot.ofList nested = .ok s ∧
        (perform (restore "out" s) (oneFile "")).1 = .error (.files "out/a" .taken)) ∧
      ∃ s, Snapshot.ofList nested.reverse = .ok s ∧
        (perform (restore "out" s) (oneFile "")).1 = .error (.files "out/a" .isDirectory) := by
  have hfs : (oneFile "").Sound := sound_oneFile (by decide +kernel)
  have hrun : (Snapshot.ofList nested).map (fun s ↦ (perform (restore "out" s) (oneFile "")).1) =
        .ok (.error (.files "out/a" .taken)) ∧
      (Snapshot.ofList nested.reverse).map
        (fun s ↦ (perform (restore "out" s) (oneFile "")).1) =
        .ok (.error (.files "out/a" .isDirectory)) := by
    decide +kernel
  exact ⟨hfs, (isEmptyDirectory_oneFile hfs).isVacant, by decide +kernel, by decide +kernel,
    Outcome.map_eq_ok.1 hrun.1, Outcome.map_eq_ok.1 hrun.2⟩

end Transfer
end FirmwareLane
