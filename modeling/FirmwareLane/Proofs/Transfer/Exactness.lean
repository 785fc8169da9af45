import Mathlib.Data.List.Pairwise
import FirmwareLane.Proofs.Transfer.Containment
import FirmwareLane.Proofs.Transfer.Placing

/-!
# Restoring is exact and additive

A restored snapshot is found in its directory file by file, and everything else is still there
(`restore_exact`).  Where restoring fails, what changed is on the way to the entries.  The order of the
entries matters neither for success nor for what comes of it.

This takes a directory whose files have no other names, and no links and no devices where the entries
come to.  What becomes of the others is seen from a few of them (`restore_not_exact`).
-/

set_option autoImplicit false
namespace FirmwareLane
namespace Transfer

open Action (perform)
open Files (Beside Grows IsPath Passable Readies Searchable)
open Text (Bytes)

variable {fs made : Files} {root name : String} {R p q : Place} {n n' : Node} {s t : Snapshot}
  {files : List (Place × Bytes)} {b : Bytes}

/-! ## The entries of a snapshot -/

/-- The places of entries, with their contents. -/
def placed (entries : List Entry) : List (Place × Content) :=
  entries.map fun e ↦ (Path.names e.path.toList, e.content)

/-- The places of entries, with the bytes that are written there. -/
def filesOf (entries : List Entry) : List (Place × Bytes) :=
  entries.map fun e ↦ (Path.names e.path.toList, written e.content)

theorem relative_names {e : Entry} (he : Path.IsAdmitted e.path) :
    relative (Path.names e.path.toList) = e.path := by
  obtain ⟨p, -, hp, hpath⟩ := exists_place_of_isAdmitted he
  rw [← hpath, names_relative hp]

theorem parted_names {e : Entry} (he : Path.IsAdmitted e.path) :
    Parted (Path.names e.path.toList) ∧ Path.names e.path.toList ≠ [] := by
  obtain ⟨p, hne, hp, hpath⟩ := exists_place_of_isAdmitted he
  rw [← hpath, names_relative hp]
  exact ⟨hp, hne⟩

theorem map_entryAt_placed (s : Snapshot) : (placed s.entries).map entryAt = s.entries := by
  rw [placed, List.map_map]
  refine (List.map_congr_left fun e he ↦ ?_).trans (List.map_id _)
  rw [Function.comp_apply, entryAt, relative_names (s.admitted he)]
  rfl

theorem map_fst_placed (entries : List Entry) : (placed entries).map Prod.fst = placesOf entries := by
  rw [placed, List.map_map]
  rfl

theorem map_writtenAt_placed (entries : List Entry) :
    (placed entries).map writtenAt = filesOf entries := by
  rw [placed, List.map_map]
  rfl

theorem nodup_placesOf (s : Snapshot) : (placesOf s.entries).Nodup := by
  refine List.Nodup.of_map relative ?_
  have hpaths : (placesOf s.entries).map relative = s.entries.map Entry.path := by
    rw [placesOf, List.map_map]
    exact List.map_congr_left fun e he ↦ relative_names (s.admitted he)
  rw [hpaths]
  exact s.nodup_paths

/-- **What restoring a snapshot comes to** where its root is. -/
theorem exists_restore (h : Based fs root R n) (hs : fs.root.Sound)
    (hclean : ∀ p ∈ placesOf s.entries, Clean fs R n p) :
    ∃ n', (perform (restore root s) fs).2 = fs.within R n' ∧ Grows n n' ∧
      (∀ q, (∀ p ∈ placesOf s.entries, ¬ q <+: p) → n'.faceAt? q = n.faceAt? q) ∧
      ((perform (restore root s) fs).1 = .ok () ↔ Room root n (placed s.entries)) ∧
      ((perform (restore root s) fs).1 = .ok () → Restored (filesOf s.entries) n n') := by
  have hplace : ∀ x ∈ placed s.entries, x.1 ∈ placesOf s.entries := by
    intro x hx
    rw [← map_fst_placed]
    exact List.mem_map_of_mem hx
  have hparted : ∀ x ∈ placed s.entries, Parted x.1 ∧ x.1 ≠ [] := by
    intro x hx
    obtain ⟨e, he, rfl⟩ := List.mem_map.1 hx
    exact parted_names (s.admitted he)
  obtain ⟨n', hfiles, hgrows, hbeside, hok, hrestored⟩ := exists_restoreEntries h hs
    (fun x hx ↦ hclean _ (hplace x hx)) hparted (map_fst_placed s.entries ▸ nodup_placesOf s)
  rw [map_entryAt_placed, ← perform_restore h.standing h.isDirectory_root] at hfiles hok hrestored
  rw [map_writtenAt_placed] at hrestored
  refine ⟨n', hfiles, hgrows, fun q hq ↦ hbeside q fun x hx ↦ hq _ (hplace x hx), hok, hrestored⟩

/-! ## Restored files are found -/

/-- The directories on the way to a restored file may be gone through. -/
theorem Restored.searchable (h : Restored files n n') (hmem : (p, b) ∈ files) (hfits : Fits n p)
    (hapart : ∀ x ∈ files, x.1 <+: p → x.1 = p) (hq : q <+: p) (hne : q ≠ p) :
    Searchable n' q := by
  rcases hfits.way q hq hne with hnone | hsearch
  · exact (Files.changeable_of_emptyDirectory (h.made q hnone ⟨_, hmem, hq, hne⟩)).searchable
  · obtain ⟨m, hface, hallows⟩ := hsearch
    refine ⟨m, (h.kept q (fun x hx heq ↦ hne ?_) (.inl ?_)).trans hface, hallows⟩
    · rw [heq]
      exact hapart x hx (heq ▸ hq)
    · rw [hface]
      exact Option.some_ne_none _

/-- **A restored file is what its path leads to.** -/
theorem Restored.exists_node (h : Restored files n n') (hbased : Based fs root R n')
    (hmem : (p, b) ∈ files) (hfits : Fits n p) (hapart : ∀ x ∈ files, x.1 <+: p → x.1 = p)
    (hpath : IsPath (Path.below root (relative p))) :
    ∃ m i, fs.node (Path.below root (relative p)) = .ok (.file m b i) := by
  have hfile := h.file _ hmem
  obtain ⟨m, i, heq⟩ := overwritten_eq_file b (n.faceAt? p)
  rw [heq] at hfile
  have hne : p ≠ [] := by
    rintro rfl
    obtain rfl : n' = .file m b i := Option.some.inj (Node.faceAt?_eq_file.1 hfile)
    cases hbased.isDirectory
  obtain ⟨front, name, rfl⟩ := (List.eq_nil_or_concat' p).resolve_left hne
  have hway : ∀ q, q <+: front → Searchable fs.root (R ++ q) := by
    intro q hq
    rw [searchable_append hbased.at?_eq]
    refine h.searchable hmem hfits hapart (hq.trans (List.prefix_append ..)) ?_
    rintro rfl
    exact ne_of_concat_isPrefix hq rfl
  have hrooted : Rooted fs root R := by
    have hself := hway [] List.nil_prefix
    rw [List.append_nil] at hself
    exact ⟨hbased.standing, ⟨n', hbased.find_eq⟩, hself⟩
  have hthere : fs.root.at? (R ++ front ++ [name]) = some (.file m b i) := by
    rw [List.append_assoc, Node.at?_append, hbased.at?_eq]
    exact Node.faceAt?_eq_file.1 hfile
  refine ⟨m, i, ?_⟩
  rw [Files.node, Files.present_eq_ok.2
    (hrooted.find_present hfits.named hpath.size hway true hthere rfl)]
  rfl

/-! ## A whole snapshot -/

/-- Files that are others with a snapshot restored below a root: the path of every entry leads to a
file with its bytes, of the directory that the root leads to nothing else has changed but that the
directories on the way to the entries are there, and outside of it nothing has. -/
structure Exact (fs : Files) (root : String) (s : Snapshot) (R : Place) (n n' : Node)
    (done : Files) : Prop where
  based : Based fs root R n
  files_eq : done = fs.within R n'
  restored : Restored (filesOf s.entries) n n'
  found : ∀ e ∈ s.entries, ∃ m i,
    done.node (Path.below root e.path) = .ok (.file m (written e.content) i)
  outside : ∀ q, ¬ R <+: q → done.root.faceAt? q = fs.root.faceAt? q

/-- Entries that there is room for are apart, so none stands on the way to another one. -/
theorem Room.eq_of_isPrefix {entries : List (Place × Content)} (h : Room root n entries)
    {x y : Place × Content} (hx : x ∈ entries) (hy : y ∈ entries) (hfront : x.1 <+: y.1) :
    x = y := by
  by_contra hne
  have hsymm : Std.Symm fun x y : Place × Content ↦ Apart x.1 y.1 :=
    ⟨fun _ _ hxy ↦ ⟨hxy.2, hxy.1⟩⟩
  exact (h.apart.forall hx hy hne).1 hfront

theorem exact_of_restored (h : Based fs root R n) (hgrows : Grows n n')
    (hroom : Room root n (placed s.entries)) (hrestored : Restored (filesOf s.entries) n n') :
    Exact fs root s R n n' (fs.within R n') := by
  refine ⟨h, rfl, hrestored, fun e he ↦ ?_, fun q hq ↦ ?_⟩
  · have hx : (Path.names e.path.toList, e.content) ∈ placed s.entries := List.mem_map_of_mem he
    have hfile : (Path.names e.path.toList, written e.content) ∈ filesOf s.entries :=
      List.mem_map_of_mem he
    have hapart : ∀ y ∈ filesOf s.entries, y.1 <+: Path.names e.path.toList →
        y.1 = Path.names e.path.toList := by
      intro y hy hfront
      obtain ⟨d, hd, rfl⟩ := List.mem_map.1 hy
      have hd' : (Path.names d.path.toList, d.content) ∈ placed s.entries := List.mem_map_of_mem hd
      exact congrArg Prod.fst (hroom.eq_of_isPrefix hd' hx hfront)
    have hfits : Fits n (Path.names e.path.toList) := hroom.fits (_, e.content) hx
    have hpath : IsPath (Path.below root (relative (Path.names e.path.toList))) :=
      hroom.isPath (_, e.content) hx
    have hbased := h.within hgrows
    have hnode := hrestored.exists_node hbased hfile hfits hapart hpath
    rwa [relative_names (s.admitted he)] at hnode
  · rw [Files.root_within, (Node.holds_of_at? h.at?_eq).faceAt?_put_outside n' hq]

/-- **Restoring is exact and additive.**  The root and the missing directories above it are made
first.  If restoring then succeeds, all entries are there, and nothing else has changed but that the
directories on the way to them are there too.  Whether it succeeds or not, nothing has changed but at
the places of the entries and on the way to them.  Entries in another order are restored too if these
are, and the same files come of it.

This is so if no entry comes to a link, to a device or to a file with another name in the directory
that the root leads to when it was made. -/
theorem restore_exact (hfs : fs.Sound) (hroot : root ≠ "")
    (hmade : (perform (Files.createAll root) fs).2 = made)
    (hclean : ∀ R n, Based made root R n → ∀ p ∈ placesOf s.entries, Clean made R n p) :
    Readies fs root made ∧
    ((perform (restore root s) fs).1 = .ok () →
      ∃ R n n', Exact made root s R n n' (perform (restore root s) fs).2) ∧
    (∀ q, (perform (restore root s) fs).2.root.faceAt? q = made.root.faceAt? q ∨
      ∃ R n, Based made root R n ∧ ∃ p ∈ placesOf s.entries, ∃ a, a <+: p ∧ q = R ++ a) ∧
    ∀ t : Snapshot, s.entries.Perm t.entries →
      ((perform (restore root t) fs).1 = .ok () ↔ (perform (restore root s) fs).1 = .ok ()) ∧
      ((perform (restore root s) fs).1 = .ok () →
        (perform (restore root t) fs).2 = (perform (restore root s) fs).2) := by
  have hready := Files.readies_createAll hfs.standing root
  have hdir := (Files.makes_createAll fs root).isDirectory hfs.standing
  rw [hmade] at hready hdir
  refine ⟨hready, ?_⟩
  have hsplit := fun u : Snapshot ↦ perform_restore_eq (s := u) hfs.standing hroot
  rcases hcreate : perform (Files.createAll root) fs with ⟨fault | _, made'⟩
  · -- the root cannot be made
    rw [hcreate] at hmade hsplit
    obtain rfl : made' = made := hmade
    have hfail : ∀ u, perform (restore root u) fs = (.error (.files root fault), made') := hsplit
    rw [hfail s]
    refine ⟨(fun hok ↦ by cases hok), fun q ↦ .inl rfl, fun t _ ↦ ?_⟩
    rw [hfail t]
    exact ⟨.rfl, fun _ ↦ rfl⟩
  · rw [hcreate] at hmade hdir hsplit
    obtain rfl : made' = made := hmade
    have hstanding := hready.furnishes.standing hfs.standing
    have hsound := hready.furnishes.tree hfs.tree
    obtain ⟨R, n, hbased⟩ := exists_based hstanding (hdir rfl hroot)
    obtain ⟨n', hfiles, hgrows, hbeside, hok, hrestored⟩ :=
      exists_restore hbased hsound (hclean R n hbased)
    have hholds := Node.holds_of_at? hbased.at?_eq
    rw [hsplit s]
    refine ⟨fun hsuccess ↦ ⟨R, n, n', ?_⟩, fun q ↦ ?_, fun t hperm ↦ ?_⟩
    · dsimp only
      rw [hfiles]
      exact exact_of_restored hbased hgrows (hok.1 hsuccess) (hrestored hsuccess)
    · dsimp only
      rw [hfiles, Files.root_within]
      by_cases hq : R <+: q
      · obtain ⟨a, rfl⟩ := hq
        by_cases hway : ∃ p ∈ placesOf s.entries, a <+: p
        · obtain ⟨p, hp, ha⟩ := hway
          exact .inr ⟨R, n, hbased, p, hp, a, ha, rfl⟩
        · refine .inl ?_
          rw [hholds.faceAt?_put_append, Node.faceAt?_append hbased.at?_eq]
          exact hbeside a fun p hp ha ↦ hway ⟨p, hp, ha⟩
      · exact .inl (hholds.faceAt?_put_outside n' hq)
    · rw [hsplit t]
      have hplaces : (placesOf s.entries).Perm (placesOf t.entries) := hperm.map _
      obtain ⟨k, hfiles', hgrows', -, hok', hrestored'⟩ := exists_restore hbased hsound
        fun p hp ↦ hclean R n hbased p (hplaces.mem_iff.2 hp)
      have hroom : Room root n (placed t.entries) ↔ Room root n (placed s.entries) :=
        ⟨fun h ↦ h.perm (hperm.map _).symm, fun h ↦ h.perm (hperm.map _)⟩
      refine ⟨hok'.trans (hroom.trans hok.symm), fun hsuccess ↦ ?_⟩
      have hn := hbased.sound hsound
      have hsuccess' := hok'.2 (hroom.2 (hok.1 hsuccess))
      have hsame : k = n' := (hrestored' hsuccess').eq_of_mem_iff (hrestored hsuccess)
        (fun x ↦ (hperm.map _).symm.mem_iff) (hgrows'.sound hn) (hgrows.sound hn)
      dsimp only
      rw [hfiles, hfiles', hsame]

/-! ## Plain directories -/

/-- A directory with nothing in it but directories, and files of one name, can be written anywhere. -/
theorem clean_of_visits (hn : n.Sound)
    (hplain : ∀ visit ∈ n.visits, visit.2.isLink = false ∧ visit.2.isDevice = false)
    (hidentities : ∀ visit ∈ n.visits, visit.2.identity = 0) (p : Place) : Clean fs R n p where
  unlinked q target _ hat := by
    have hlink := (hplain _ ((Node.mem_visits hn).2 hat)).1
    cases hlink
  only m b i hp hi := absurd (hidentities _ ((Node.mem_visits hn).2 hp)) hi
  device d hat := by
    have hdevice := (hplain _ ((Node.mem_visits hn).2 hat)).2
    cases hdevice

/-- A directory with two files, and with a directory in it. -/
def furnished : Files where
  root := .directory 0o755
    [("in", .directory 0o755
      [("a.c", .file 0o600 [97] 0), ("b.c", .file 0o644 [98] 0), ("d", .directory 0o700 [])])]
  here := []

theorem sound_furnished : furnished.Sound :=
  Files.sound_of_identities (by decide +kernel) (by decide +kernel) (Option.some_ne_none _)

theorem find_furnished : furnished.find true "in" = .ok (.present ["in"] (.directory 0o755
    [("a.c", .file 0o600 [97] 0), ("b.c", .file 0o644 [98] 0), ("d", .directory 0o700 [])])) :=
  Files.find_name sound_furnished.standing (by decide) ⟨0o755, rfl, by decide⟩ rfl rfl

/-- A file is overwritten and another one is made, in either order. -/
theorem restore_exact_of_furnished :
    ∃ s t : Snapshot, s.entries = [⟨"a.c", .text "x\r\n"⟩, ⟨"d/e/n", .binary [13, 10]⟩] ∧
      t.entries = s.entries.reverse ∧ (perform (restore "in" s) furnished).1 = .ok () ∧
      (∀ e ∈ s.entries, ∃ m i, (perform (restore "in" s) furnished).2.node
        (Path.below "in" e.path) = .ok (.file m (written e.content) i)) ∧
      (perform (restore "in" s) furnished).2.root.at? ["in", "b.c"] = some (.file 0o644 [98] 0) ∧
      (perform (restore "in" t) furnished).2 = (perform (restore "in" s) furnished).2 := by
  have hrun : (Snapshot.ofList [⟨"a.c", .text "x\r\n"⟩, ⟨"d/e/n", .binary [13, 10]⟩]).map
        (fun s ↦ (s.entries, (perform (restore "in" s) furnished).1)) =
          .ok ([⟨"a.c", .text "x\r\n"⟩, ⟨"d/e/n", .binary [13, 10]⟩], .ok ()) ∧
      (Snapshot.ofList [⟨"d/e/n", .binary [13, 10]⟩, ⟨"a.c", .text "x\r\n"⟩]).map
        Snapshot.entries = .ok [⟨"d/e/n", .binary [13, 10]⟩, ⟨"a.c", .text "x\r\n"⟩] := by
    decide +kernel
  obtain ⟨s, -, hs⟩ := Outcome.map_eq_ok.1 hrun.1
  obtain ⟨t, -, ht⟩ := Outcome.map_eq_ok.1 hrun.2
  obtain ⟨hs, hok⟩ := Prod.mk.inj hs
  have hmade : (perform (Files.createAll "in") furnished).2 = furnished := by
    rw [Files.createAll_of_isDirectory sound_furnished.standing
      (Files.isDirectory_iff.2 ⟨_, _, _, find_furnished⟩)]
  obtain ⟨-, hexact, hbeside, hperm⟩ :=
    restore_exact (s := s) sound_furnished (by decide) hmade fun R n hbased p _ ↦ by
      obtain ⟨rfl, rfl⟩ := Files.present_unique find_furnished hbased.find_eq
      exact clean_of_visits (hbased.sound sound_furnished.tree) (by decide) (by decide) p
  obtain ⟨R, n, n', hdone⟩ := hexact hok
  refine ⟨s, t, hs, by rw [hs, ht]; rfl, hok, hdone.found, ?_, ?_⟩
  · rcases hbeside ["in", "b.c"] with hsame | ⟨R, n, hbased, p, hp, a, ha, heq⟩
    · exact Node.faceAt?_eq_file.1 hsame
    · obtain ⟨rfl, -⟩ := Files.present_unique find_furnished hbased.find_eq
      obtain rfl : a = ["b.c"] := (List.cons.inj heq).2.symm
      have hplaces : placesOf s.entries = [["a.c"], ["d", "e", "n"]] := by
        rw [placesOf, hs]
        decide
      have haway : ∀ p ∈ [["a.c"], ["d", "e", "n"]], ¬ ["b.c"] <+: p := by decide
      exact absurd ha (haway p (hplaces ▸ hp))
  · refine (hperm t ?_).2 hok
    rw [hs, ht]
    exact .swap ..

/-! ## Where it is not exact -/

/-- What restoring entries answers, and what a file holds then. -/
def attempt (fs : Files) (root : String) (entries : List Entry) (path : String) :
    Except Snapshot.Refusal (Except Fault Unit × Except Files.Fault Bytes) :=
  (Snapshot.ofList entries).map fun s ↦
    ((perform (restore root s) fs).1, (perform (restore root s) fs).2.read path)

/-- A directory with a file of two names and with a device. -/
def twinned : Files where
  root := .directory 0o755
    [("in", .directory 0o755
      [("a", .file 0o644 [97] 1), ("b", .file 0o644 [97] 1), ("null", .device .null)])]
  here := []

set_option synthInstance.maxSize 256 in
/-- **Restoring is not exact everywhere.**  What it leaves when it fails depends on the order of the
entries, and there may be new directories then that no entry is in.  A file with two names changes
under both, and a device takes what is written to it and does not hold it.  Links are followed in the
directory that the empty root stands for, and in one that is there only when the directories above it
were made. -/
theorem restore_not_exact :
    -- a file where a directory has to be, or the other way round
    attempt furnished "out" [⟨"a", .text "x"⟩, ⟨"a/b", .text "y"⟩] "out/a" =
      .ok (.error (.files "out/a" .taken), .ok [120]) ∧
    attempt furnished "out" [⟨"a/b", .text "y"⟩, ⟨"a", .text "x"⟩] "out/a" =
      .ok (.error (.files "out/a" .isDirectory), .error .isDirectory) ∧
    -- a file where the root has to be, which is seen only when the directory above it was made
    furnished.read "new/../in/a.c" = .error .notFound ∧ furnished.read "new" = .error .notFound ∧
    attempt furnished "new/../in/a.c" [] "new" =
      .ok (.error (.files "new/../in/a.c" .taken), .error .isDirectory) ∧
    -- another name, and a device
    twinned.read "in/b" = .ok [97] ∧
    attempt twinned "in" [⟨"a", .text "x"⟩] "in/b" = .ok (.ok (), .ok [120]) ∧
    attempt twinned "in" [⟨"null", .text "x"⟩] "in/null" = .ok (.ok (), .ok []) ∧
    -- links below roots that are not there
    linked.read "out/a.c" = .ok [98] ∧
    attempt { linked with here := ["in"] } "" [⟨"l/a.c", .text "x"⟩] "../out/a.c" =
      .ok (.ok (), .ok [120]) ∧
    linked.read "new/../in" = .error .notFound ∧
    attempt linked "new/../in" [⟨"l/a.c", .text "x"⟩] "out/a.c" = .ok (.ok (), .ok [120]) := by
  decide +kernel

end Transfer
end FirmwareLane
