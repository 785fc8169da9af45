import FirmwareLane.Proofs.Transfer.Twins

/-!
# What restoring leaves alone

A snapshot is restored below the directory that its root leads to.  Every path in it stays below the
root as a text, but a symbolic link on its way may lead out of that directory, and then a file is
written elsewhere; so may a second name of a file.  Where neither is, nothing outside the directory
changes, whether all of the snapshot is restored or not (`restore_leaves_outside`).
-/

set_option autoImplicit false
namespace FirmwareLane
namespace Transfer

open Action (perform)
open Files (Readies Unlinked)

variable {fs : Files} {root : String} {R : Place} {n : Node} {s : Snapshot}

/-- What restoring into a directory that may have to be made comes to. -/
theorem perform_restore_eq (hs : fs.IsStanding) (hroot : root ≠ "") :
    perform (restore root s) fs =
      match perform (Files.createAll root) fs with
      | (.ok (), made) => perform (restore root s) made
      | (.error fault, made) => (.error (.files root fault), made) := by
  have hmade : perform (Files.describing (Fault.files root) (Files.createAll root)) fs =
      ((perform (Files.createAll root) fs).1.mapError (.files root),
        (perform (Files.createAll root) fs).2) := by
    rw [Files.describing, Action.perform_adapt]
  have hdir := (Files.makes_createAll fs root).isDirectory hs
  have hstanding := (Files.readies_createAll hs root).furnishes.standing hs
  rcases hcreate : perform (Files.createAll root) fs with ⟨fault | _, made⟩
  · rw [hcreate] at hmade
    rw [restore, Action.perform_bind_error hmade]
  · rw [hcreate] at hmade hdir hstanding
    dsimp only
    rw [restore, Action.perform_bind_ok hmade]
    exact (perform_restore hstanding (hdir rfl hroot) s).symm

theorem exists_based (hs : fs.IsStanding) (hdir : fs.isDirectory root = true) :
    ∃ R n, Based fs root R n := by
  obtain ⟨R, m, es, hfind⟩ := Files.isDirectory_iff.1 hdir
  exact ⟨R, _, hs, hfind, rfl⟩

/-- **Restoring changes nothing outside its root**, but for the root and the missing directories above
it, if no entry comes to a link below the root or to a file with a name outside.  That is so even if
restoring fails. -/
theorem restore_leaves_outside {made : Files} (hfs : fs.Sound) (hroot : root ≠ "")
    (hmade : (perform (Files.createAll root) fs).2 = made)
    (hsafe : ∀ R n, Based made root R n → ∀ p ∈ placesOf s.entries, Unlinked n p ∧ Owned made R n p) :
    Readies fs root made ∧
      ((perform (restore root s) fs).2 = made ∨
        ∃ R n n', Based made root R n ∧ (perform (restore root s) fs).2 = made.within R n' ∧
          ∀ q, ¬ R <+: q →
            (perform (restore root s) fs).2.root.faceAt? q = made.root.faceAt? q) := by
  have hready := Files.readies_createAll hfs.standing root
  have hdir := (Files.makes_createAll fs root).isDirectory hfs.standing
  rw [hmade] at hready hdir
  refine ⟨hready, ?_⟩
  rw [perform_restore_eq hfs.standing hroot]
  rcases hcreate : perform (Files.createAll root) fs with ⟨fault | _, made'⟩
  · rw [hcreate] at hmade
    exact .inl hmade
  · rw [hcreate] at hmade hdir
    obtain rfl : made' = made := hmade
    have hstanding := hready.furnishes.standing hfs.standing
    obtain ⟨R, n, hbased⟩ := exists_based hstanding (hdir rfl hroot)
    have hsite : Site made' root R n (placesOf s.entries) :=
      ⟨hbased, hready.furnishes.tree hfs.tree, fun p hp ↦ (hsafe R n hbased p hp).1,
        fun p hp ↦ (hsafe R n hbased p hp).2⟩
    obtain ⟨n', -, hfiles⟩ := (isLocal_restore s).exists_perform hsite
    refine .inr ⟨R, n, n', hbased, hfiles, fun q hq ↦ ?_⟩
    dsimp only
    rw [hfiles, Files.root_within,
      (Node.holds_of_at? hbased.at?_eq).faceAt?_put_outside n' hq]

/-! ## A link below the root -/

/-- A directory with a file and with a link that leads out of it to a file of the same name. -/
def linked : Files where
  root := .directory 0o755
    [("in", .directory 0o755 [("a.c", .file 0o644 [97] 0), ("l", .link "../out")]),
     ("out", .directory 0o755 [("a.c", .file 0o644 [98] 0)])]
  here := []

theorem sound_linked : linked.Sound :=
  Files.sound_of_identities (by decide +kernel) (by decide +kernel) nofun

/-- Where the link is not on the way of an entry, the file behind it stays as it was. -/
theorem restore_leaves_outside_of_linked :
    ∃ s : Snapshot, s.entries = [⟨"a.c", .text "new"⟩] ∧
      (perform (restore "in" s) linked).2.root.at? ["out", "a.c"] = some (.file 0o644 [98] 0) := by
  have hentries : (Snapshot.empty.insert ⟨"a.c", .text "new"⟩).map Snapshot.entries =
      .ok [⟨"a.c", .text "new"⟩] := by decide +kernel
  obtain ⟨s, -, hentries⟩ := Outcome.map_eq_ok.1 hentries
  refine ⟨s, hentries, ?_⟩
  have hroot : Files.Searchable linked.root [] := ⟨0o755, rfl, by decide⟩
  have hfind : linked.find true "in" = .ok (.present ["in"] (.directory 0o755
      [("a.c", .file 0o644 [97] 0), ("l", .link "../out")])) := by
    refine (Files.find_eq_ok sound_linked.standing).2 ⟨⟨by decide, by decide, by decide⟩, ?_⟩
    rw [show Files.steps "in" = ["in"] by decide]
    exact .into hroot ⟨by decide, by decide, by decide⟩ rfl rfl (.present rfl)
  have hmade : (perform (Files.createAll "in") linked).2 = linked := by
    rw [Files.createAll_of_isDirectory sound_linked.standing (by decide +kernel)]
  have hplaces : placesOf s.entries = [["a.c"]] := by
    rw [placesOf, hentries]
    decide
  obtain ⟨-, hsame | ⟨R, n, n', hbased, -, houtside⟩⟩ :=
    restore_leaves_outside (s := s) sound_linked (by decide) hmade fun R n hbased p hp ↦ by
      obtain ⟨rfl, rfl⟩ := Files.present_unique hfind hbased.find_eq
      obtain rfl := List.mem_singleton.1 (hplaces ▸ hp)
      refine ⟨fun q target hq ↦ ?_, ?_⟩
      · rcases (List.mem_inits q _).2 hq with _ | ⟨_, _ | ⟨_, ⟨⟩⟩⟩ <;> exact nofun
      · rintro m b i ⟨⟩ hi
        exact absurd rfl hi
  · rw [hsame]
    rfl
  · obtain ⟨rfl, -⟩ := Files.present_unique hfind hbased.find_eq
    exact Node.faceAt?_eq_file.1 ((houtside ["out", "a.c"] (by decide)).trans rfl)

/-- Where it is, that file is overwritten. -/
example : (Snapshot.empty.insert ⟨"l/a.c", .text "new"⟩).map (fun s ↦
    (perform (restore "in" s) linked).2.read "out/a.c") = .ok (.ok [110, 101, 119]) := by
  decide +kernel

end Transfer
end FirmwareLane
