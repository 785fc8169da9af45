import Mathlib.Data.List.Flatten
import FirmwareLane.Proofs.Transfer.Captured
import FirmwareLane.Proofs.Transfer.Seeing

/-!
# Which file a captured path names

A capture records a file under the names on the way to it, and then brings this path into normal
form.  For a name with a backslash in it the two are at odds: in a directory a backslash is a
character like others, in a path it separates.  So a file may be recorded under the path of another
place, and two files may be recorded under one path, which makes the whole capture fail.

Nothing else does.  If a capture fails over a path that is there already, a backslash is in a name
of one of the two files (`exists_of_duplicatePath`); and an entry names the file that it was made of
exactly if no backslash is on the way to that file (`isNamedBy_iff`).
-/

set_option autoImplicit false
namespace FirmwareLane

namespace Snapshot

/-- An entry is refused for its path only if this is there already. -/
theorem mem_paths_of_duplicatePath {s : Snapshot} {e : Entry} {path : String}
    (h : s.insert e = .error (.duplicatePath path)) :
    path = e.normalized.path ∧ path ∈ s.paths := by
  have hfault : ((Catalogue.insert e).perform s.catalogue).1 = .error (.duplicatePath path) := by
    rw [insert, after] at h
    cases hresult : ((Catalogue.insert e).perform s.catalogue).1 with
    | ok u => rw [hresult] at h; cases h
    | error r => rw [hresult] at h; exact congrArg _ (Except.error.inj h)
  rw [Catalogue.perform_insert] at hfault
  split_ifs at hfault with hcontained hthere
  · obtain rfl := Refusal.duplicatePath.inj (Except.error.inj hfault)
    exact ⟨rfl, (s.consistent.contains_iff _).1 hthere⟩
  · cases hfault

end Snapshot

namespace Transfer

variable {fs : Files} {root path : String} {table : Classification} {R place : Place}
  {searchable : Bool} {n : Node} {s : Snapshot} {items : List (Except Fault Registered)}

/-! ## The items of a walk -/

/-- The path that an item of a walk is recorded under, if it is a file. -/
def recordedPath? : Except Fault Registered → Option String
  | .ok (path, _, _) => some (Path.normalize path)
  | .error _ => none

/-- The fault that an item of a walk comes with, if it does. -/
def faultOf? : Except Fault Registered → Option Fault
  | .ok (_, _, .ok _) => none
  | .ok (_, _, .error fault) => some fault
  | .error fault => some fault

/-- **What a walk comes to, whether it can open it or not, are files that it finds, in their
order.** -/
theorem recorded_sublist (h : n.Sound) :
    ((registeredBelow root table place searchable n).filterMap recordedPath?).Sublist
      ((foundBelow table place n).map Found.path) := by
  induction h generalizing place searchable with
  | file m b i =>
    rw [registeredBelow_file, foundBelow_of_not_directory rfl, found?]
    cases table.encoding? (relative place) with
    | none => exact .slnil
    | some e => exact .refl _
  | link target =>
    rw [registeredBelow_eq_nil rfl rfl]
    exact List.nil_sublist _
  | device d =>
    rw [registeredBelow_eq_nil rfl rfl]
    exact List.nil_sublist _
  | @directory m es sorted named sound ih =>
    rw [registeredBelow_directory]
    split
    · exact List.nil_sublist _
    · rw [foundBelow_directory, List.filterMap_flatMap, List.map_flatMap]
      exact .flatMap_right _ fun entry hentry ↦ ih entry hentry

/-- The faults of a walk are those of the file system. -/
theorem not_refused_of_registeredBelow (h : n.Sound) {x : Except Fault Registered}
    (hx : x ∈ registeredBelow root table place searchable n) (r : Snapshot.Refusal) :
    faultOf? x ≠ some (.refused r) := by
  induction h generalizing place searchable with
  | file m b i =>
    rw [registeredBelow_file] at hx
    split at hx
    · rw [List.mem_singleton.1 hx, reached]
      split <;> rintro ⟨⟩
    · exact absurd hx List.not_mem_nil
  | link target =>
    rw [registeredBelow_eq_nil rfl rfl] at hx
    exact absurd hx List.not_mem_nil
  | device d =>
    rw [registeredBelow_eq_nil rfl rfl] at hx
    exact absurd hx List.not_mem_nil
  | @directory m es sorted named sound ih =>
    rw [registeredBelow_directory] at hx
    split at hx
    · rw [List.mem_singleton.1 hx]
      rintro ⟨⟩
    · obtain ⟨entry, hentry, hx⟩ := List.mem_flatMap.1 hx
      exact ih entry hentry hx

/-! ## Paths that are there already -/

theorem add_eq_duplicatePath {p : String} {e : Encoding} {b : Text.Bytes}
    (h : add s p e b = .error (.refused (.duplicatePath path))) :
    path = Path.normalize p ∧ path ∈ s.paths := by
  rw [add, Outcome.bind_eq_error] at h
  rcases h with hcontent | ⟨c, -, hinsert⟩
  · unfold content at hcontent
    split at hcontent
    · cases hcontent
    · split at hcontent <;> cases hcontent
  · split at hinsert
    · cases hinsert
    · next r hr =>
      obtain rfl : r = .duplicatePath path := Fault.refused.inj (Except.error.inj hinsert)
      exact Snapshot.mem_paths_of_duplicatePath hr

theorem paths_of_add {t : Snapshot} {p : String} {e : Encoding} {b : Text.Bytes}
    (h : add s p e b = .ok t) : t.paths = s.paths ++ [Path.normalize p] := by
  obtain ⟨c, -, hinsert⟩ := add_eq_ok.1 h
  obtain ⟨-, -, hentries⟩ := Snapshot.insert_eq_ok.1 hinsert
  exact (congrArg (List.map Entry.path) hentries).trans List.map_append

/-- **Where adding fails over a path that is there already, this path is come to twice.** -/
theorem sublist_of_duplicatePath (hitems : ∀ x ∈ items, ∀ r, faultOf? x ≠ some (.refused r))
    (h : addAll s items = .error (.refused (.duplicatePath path))) :
    [path, path].Sublist (s.paths ++ items.filterMap recordedPath?) := by
  induction items generalizing s with
  | nil => exact nomatch h
  | cons x rest ih =>
    obtain ⟨hx, hrest⟩ := List.forall_mem_cons.1 hitems
    match x with
    | .error fault => exact absurd (congrArg some (Except.error.inj h)) (hx _)
    | .ok (p, e, .error fault) => exact absurd (congrArg some (Except.error.inj h)) (hx _)
    | .ok (p, e, .ok b) =>
      have hpath : recordedPath? (.ok (p, e, .ok b)) = some (Path.normalize p) := rfl
      rw [List.filterMap_cons_some hpath]
      rw [addAll, Outcome.bind_eq_error] at h
      rcases h with hopened | ⟨b', hb', h⟩
      · cases hopened
      · obtain rfl := Except.ok.inj hb'
        rcases Outcome.bind_eq_error.1 h with hadd | ⟨t, ht, hlater⟩
        · obtain ⟨rfl, hmem⟩ := add_eq_duplicatePath hadd
          exact (List.singleton_sublist.2 hmem).append (List.singleton_sublist.2 List.mem_cons_self)
        · have hfront := ih hrest hlater
          rwa [paths_of_add ht, List.append_assoc, List.singleton_append] at hfront

/-- Places whose texts have one normal form are one place, unless there is a backslash in one of
them. -/
theorem eq_of_normalize_eq {p q : Place} (hp : Parted p) (hq : Parted q)
    (h : Path.normalize (relative p) = Path.normalize (relative q))
    (hback : ∀ name ∈ p ++ q, '\\' ∉ name.toList) : p = q := by
  rw [normalize_relative hp fun name hname ↦ hback name (List.mem_append_left q hname),
    normalize_relative hq fun name hname ↦ hback name (List.mem_append_right p hname)] at h
  exact relative_injective hp hq h

theorem parted_of_mem_found (h : n.Sound) {f : Found} (hf : f ∈ found table n) : Parted f.place :=
  Named.parted (h.at? ((mem_found h).1 hf).1).1

/-- **A capture fails over a path that is there already only for a backslash in a name.** -/
theorem exists_of_duplicatePath (h : n.Sound)
    (hcapture : captureNode root table n = .error (.refused (.duplicatePath path))) :
    ∃ f ∈ found table n, ∃ g ∈ found table n, f.place ≠ g.place ∧ f.path = path ∧ g.path = path ∧
      ∃ name ∈ f.place ++ g.place, '\\' ∈ name.toList := by
  have htwice := sublist_of_duplicatePath (fun x hx ↦ not_refused_of_registeredBelow h hx) hcapture
  have hfound : [path, path].Sublist ((found table n).map Found.path) :=
    htwice.trans (recorded_sublist h)
  obtain ⟨pair, hpair, hpaths⟩ := List.sublist_map_iff.1 hfound
  obtain ⟨f, rest, rfl, hf, hrest⟩ := List.map_eq_cons_iff.1 hpaths.symm
  obtain ⟨g, nothing, rfl, hg, hnothing⟩ := List.map_eq_cons_iff.1 hrest
  obtain rfl := List.map_eq_nil_iff.1 hnothing
  have hfmem := hpair.subset List.mem_cons_self
  have hgmem := hpair.subset (List.mem_cons_of_mem f List.mem_cons_self)
  have hne : f.place ≠ g.place := by
    have hlt := List.rel_of_pairwise_cons ((sorted_found h).sublist hpair) List.mem_cons_self
    exact fun heq ↦ List.lt_irrefl _ (heq ▸ hlt)
  refine ⟨f, hfmem, g, hgmem, hne, hf, hg, ?_⟩
  by_contra hback
  push Not at hback
  exact hne (eq_of_normalize_eq (parted_of_mem_found h hfmem) (parted_of_mem_found h hgmem)
    (hf.trans hg.symm) hback)

/-! ## Entries that name their files -/

/-- An entry names a file: its path has the names on the way to the file, and joined to the root it
leads to this very file. -/
structure Found.IsNamedBy (f : Found) (fs : Files) (root : String) (R : Place) (e : Entry) :
    Prop where
  names_eq : Path.names e.path.toList = f.place
  find_eq : fs.find true (Path.below root e.path) =
    .ok (.present (R ++ f.place) (.file f.mode f.bytes f.identity))

/-- **A captured file is named by its entry exactly if there is no backslash on the way to it.** -/
theorem isNamedBy_iff (hbased : Based fs root R n) (h : n.Sound)
    (hopens : Opens root table [] true n) {f : Found} {e : Entry} (hf : f ∈ found table n)
    (he : f.IsCapturedAs e) :
    f.IsNamedBy fs root R e ↔ ∀ name ∈ f.place, '\\' ∉ name.toList := by
  have hparted := parted_of_mem_found h hf
  have hplace := inPlace_of_mem_found hbased.at?_eq hbased.isDirectory h hopens hf
  have hrooted : Rooted fs root R := ⟨hbased.standing, ⟨n, hbased.find_eq⟩, hplace.searchable⟩
  constructor
  · rintro ⟨hnames, -⟩ name hname hback
    rw [← hnames, he.path_eq, Path.names, List.mem_map] at hname
    obtain ⟨part, hpart, rfl⟩ := hname
    rw [String.toList_ofList] at hback
    have hmem := Path.mem_of_mem_splitOn (List.mem_filter.1 hpart).1 hback
    rw [Path.normalize, String.toList_ofList] at hmem
    exact Path.backslash_not_mem_normalChars _ hmem
  · intro hback
    have hpath : e.path = relative f.place := he.path_eq.trans (normalize_relative hparted hback)
    exact ⟨hpath ▸ names_relative hparted, hpath ▸ hplace.find_eq hrooted true⟩

/-! ## What a captured path names -/

theorem capture_of_find {m : Nat} {es : List (String × Node)}
    (hfind : fs.find true root = .ok (.present R (.directory m es))) :
    capture fs root table = captureNode root table (.directory m es) := by
  rw [capture, directoryAt, Files.node, Files.present_eq_ok.2 hfind]
  rfl

/-- **Only backslashes in names keep captured paths from naming their files.**  A capture fails over
a path that is there already only if two registered files, one of them with a backslash in a name,
have that path in normal form, and never goes well if two of them have one path.  If it goes well,
all paths differ, and each of them names the file that its content was read from exactly if no
backslash is on the way to that file. -/
theorem captured_paths_identify (table : Classification) {m : Nat} {es : List (String × Node)}
    (hfs : fs.Sound) (hfind : fs.find true root = .ok (.present R (.directory m es))) :
    (∀ path, capture fs root table = .error (.refused (.duplicatePath path)) →
      ∃ f ∈ found table (.directory m es), ∃ g ∈ found table (.directory m es),
        f.place ≠ g.place ∧ f.path = path ∧ g.path = path ∧
        ∃ name ∈ f.place ++ g.place, '\\' ∈ name.toList) ∧
      (∀ f ∈ found table (.directory m es), ∀ g ∈ found table (.directory m es),
        f.place ≠ g.place → f.path = g.path → ∀ s, capture fs root table ≠ .ok s) ∧
      ∀ s, capture fs root table = .ok s →
        (s.entries.map Entry.path).Nodup ∧
        List.Forall₂ (fun f e ↦ f.IsCapturedAs e ∧
            (f.IsNamedBy fs root R e ↔ ∀ name ∈ f.place, '\\' ∉ name.toList))
          (found table (.directory m es)) s.entries := by
  have hbased : Based fs root R (.directory m es) := ⟨hfs.standing, hfind, rfl⟩
  have hsound : (Node.directory m es).Sound := Files.sound_of_find hfs.tree hfind
  rw [capture_of_find hfind]
  refine ⟨fun path hcapture ↦ exists_of_duplicatePath hsound hcapture,
    fun f hf g hg hne hpath s hcapture ↦ ?_, fun s hcapture ↦ ⟨s.nodup_paths, ?_⟩⟩
  · have hdistinct := ((exists_captureNode_iff hsound).1 ⟨s, hcapture⟩).distinct
    exact hne (congrArg Found.place (List.inj_on_of_nodup_map hdistinct hf hg hpath))
  · have hopens := (passes_registeredBelow hsound).1 (passes_of_addAll hcapture)
    exact forall₂_imp_of_mem (forall₂_of_captureNode hcapture) fun f hf e he ↦
      ⟨he, isNamedBy_iff hbased hsound hopens hf he⟩

/-- A directory with two files, and with a backslash in the name of one of them. -/
def backslashed : Files where
  root := .directory 0o755
    [("in", .directory 0o755
      [("a", .directory 0o755 [("b.c", .file 0o644 [49] 0)]), ("a\\b.c", .file 0o644 [50] 0)])]
  here := []

theorem sound_backslashed : backslashed.Sound :=
  Files.sound_of_identities (by decide +kernel) (by decide +kernel) (Option.some_ne_none _)

theorem find_backslashed : backslashed.find true "in" = .ok (.present ["in"] (.directory 0o755
    [("a", .directory 0o755 [("b.c", .file 0o644 [49] 0)]), ("a\\b.c", .file 0o644 [50] 0)])) :=
  Files.find_name sound_backslashed.standing (by decide) ⟨0o755, rfl, by decide⟩ rfl rfl

theorem find_backslashed_plain : backslashed.find true "in/a" =
    .ok (.present ["in", "a"] (.directory 0o755 [("b.c", .file 0o644 [49] 0)])) := by
  refine (Files.find_eq_ok sound_backslashed.standing).2 ⟨⟨by decide, by decide, by decide⟩, ?_⟩
  rw [show Files.steps "in/a" = ["in", "a"] by decide]
  exact .into ⟨0o755, rfl, by decide⟩ ⟨by decide, by decide, by decide⟩ rfl rfl
    (.into ⟨0o755, rfl, by decide⟩ ⟨by decide, by decide, by decide⟩ rfl rfl (.present rfl))

/-- Two files are taken for one, and nothing is captured.  In the directory where only one of them
is, it is captured, and its entry names it. -/
theorem captured_paths_identify_of_backslashed :
    capture backslashed "in" (.ofList [("c", .text)]) =
        .error (.refused (.duplicatePath "a/b.c")) ∧
      (∃ f g : Found, f.place ≠ g.place ∧ f.path = "a/b.c" ∧ g.path = "a/b.c" ∧
        ∃ name ∈ f.place ++ g.place, '\\' ∈ name.toList) ∧
      ∃ s f, capture backslashed "in/a" (.ofList [("c", .text)]) = .ok s ∧ f.place = ["b.c"] ∧
        ∃ e ∈ s.entries, e = ⟨"b.c", .text "1"⟩ ∧
          Found.IsNamedBy f backslashed "in/a" ["in", "a"] e := by
  have hrefused : capture backslashed "in" (.ofList [("c", .text)]) =
      .error (.refused (.duplicatePath "a/b.c")) := by
    decide +kernel
  have hrun : (capture backslashed "in/a" (.ofList [("c", .text)])).map Snapshot.entries =
      .ok [⟨"b.c", .text "1"⟩] := by
    decide +kernel
  have hplaces : (found (.ofList [("c", .text)])
      (.directory 0o755 [("b.c", .file 0o644 [49] 0)])).map Found.place = [["b.c"]] := by
    decide +kernel
  refine ⟨hrefused, ?_, ?_⟩
  · obtain ⟨hduplicate, -, -⟩ := captured_paths_identify (.ofList [("c", .text)])
      sound_backslashed find_backslashed
    obtain ⟨f, -, g, -, htwo⟩ := hduplicate _ hrefused
    exact ⟨f, g, htwo⟩
  · obtain ⟨s, hs, hentries⟩ := Outcome.map_eq_ok.1 hrun
    obtain ⟨-, -, hcaptured⟩ := captured_paths_identify (.ofList [("c", .text)])
      sound_backslashed find_backslashed_plain
    obtain ⟨-, hnamed⟩ := hcaptured s hs
    rw [hentries] at hnamed
    obtain ⟨f, rest, ⟨-, hf⟩, -, hlist⟩ := List.forall₂_cons_right_iff.1 hnamed
    rw [hlist] at hplaces
    have hplace : f.place = ["b.c"] := (List.cons.inj hplaces).1
    refine ⟨s, f, hs, hplace, _, hentries ▸ List.mem_cons_self, rfl, hf.2 ?_⟩
    rw [hplace]
    decide

/-- A file with a backslash in its name is recorded under a path at which there is nothing. -/
example : (capture ⟨.directory 0o755 [("in", .directory 0o755 [("a\\b.c", .file 0o644 [50] 0)])], []⟩
    "in" (.ofList [("c", .text)])).map Snapshot.entries = .ok [⟨"a/b.c", .text "2"⟩] := by
  decide +kernel

end Transfer
end FirmwareLane
