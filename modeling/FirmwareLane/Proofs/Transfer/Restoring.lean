import FirmwareLane.Proofs.Transfer.Making
import FirmwareLane.Transfer.Basic

/-!
# Restoring one entry

What restoring an entry does in the two cases in which nothing is in its way: where there was
nothing, the missing directories and the file are made (`restoreEntry_vacant`), and where there was a
file, it holds other bytes (`restoreEntry_present`).  Either way the tree grows, so that the root
still leads where it led when the next entry comes.
-/

set_option autoImplicit false
namespace FirmwareLane
namespace Transfer

open Action (perform)
open Files (Changeable Passable)
open Text (Bytes)

variable {fs fs' : Files} {root name : String} {R p : Place}

/-- Restoring into a directory that is there begins with the first entry. -/
theorem perform_restore (hstanding : fs.IsStanding) (hdir : fs.isDirectory root = true)
    (s : Snapshot) :
    perform (restore root s) fs = perform (s.entries.forM (restoreEntry root)) fs := by
  have hmade : perform (Files.describing (Fault.files root) (Files.createAll root)) fs =
      (.ok (), fs) := by
    rw [Files.describing, Action.perform_adapt, Files.createAll_of_isDirectory hstanding hdir]
    rfl
  rw [restore, Action.perform_bind_ok hmade]

/-- The directory above is made first, and then the file is written. -/
theorem perform_restoreEntry (hp : Named p) (content : Content) {parent : String}
    (hparent : Path.parent? (Path.below root (relative p)) = some parent)
    (hmade : perform (Files.createAll parent) fs = (.ok (), fs')) :
    perform (restoreEntry root ⟨relative p, content⟩) fs =
      ((perform (Files.write (Path.below root (relative p)) (written content)) fs').1.mapError
        (.files (Path.below root (relative p))),
       (perform (Files.write (Path.below root (relative p)) (written content)) fs').2) := by
  have hdescribed : perform (Files.describing (Fault.files parent) (Files.createAll parent)) fs =
      (.ok (), fs') := by
    rw [Files.describing, Action.perform_adapt, hmade]
    rfl
  rw [restoreEntry, belowOnly?_relative hp.parted]
  dsimp only
  rw [hparent]
  dsimp only
  rw [Action.perform_bind_ok hdescribed, Files.describing, Action.perform_adapt]

/-- An entry is restored only under a path that can be followed. -/
theorem isPath_of_restoreEntry (hp : Named p) {content : Content}
    (h : perform (restoreEntry root ⟨relative p, content⟩) fs = (.ok (), fs')) :
    Files.IsPath (Path.below root (relative p)) := by
  have hwritten : ∀ {fs : Files},
      perform (Files.describing (Fault.files (Path.below root (relative p)))
        (Files.write (Path.below root (relative p)) (written content))) fs = (.ok (), fs') →
      Files.IsPath (Path.below root (relative p)) := by
    intro fs h
    rw [Files.describing, Action.perform_adapt] at h
    exact Files.isPath_of_write (Prod.ext (Outcome.mapError_eq_ok.1 (Prod.mk.inj h).1) rfl)
  rw [restoreEntry, belowOnly?_relative hp.parted] at h
  dsimp only at h
  split at h
  · rw [Action.perform_bind] at h
    split at h
    · exact hwritten h
    · exact nomatch (Prod.mk.inj h).1
  · exact hwritten h

/-! ## Over a file that is there -/

section Present

variable (h : Rooted fs root R) (hp : Named (p ++ [name]))
  (hsize : (Path.below root (relative (p ++ [name]))).utf8ByteSize ≤ Files.greatestPath)
  (hpass : Passable fs.root R p)

include h hp hsize hpass

/-- The directory above a file that is there is left alone. -/
theorem exists_parent :
    ∃ parent, Path.parent? (Path.below root (relative (p ++ [name]))) = some parent ∧
      perform (Files.createAll parent) fs = (.ok (), fs) := by
  by_cases hne : p = []
  · subst hne
    obtain ⟨parent, hparent, hdir⟩ := h.isDirectory_parent hp.last
    exact ⟨parent, hparent, Files.createAll_of_isDirectory h.standing hdir⟩
  · refine ⟨_, parent?_below h.ne_empty hne hp.parted, Files.createAll_of_isDirectory h.standing ?_⟩
    obtain ⟨above, last, rfl⟩ := (List.eq_nil_or_concat' p).resolve_left hne
    obtain ⟨m, es, hplace, -⟩ := Files.searchable_iff.1 (hpass _ List.prefix_rfl)
    rw [← List.append_assoc] at hplace
    have hshort := utf8ByteSize_below_le h.ne_empty hne hp.parted
    exact Files.isDirectory_iff.2 ⟨_, m, es,
      h.find_present hp.of_append_left (hshort.trans hsize) hpass.of_concat true hplace rfl⟩

variable {m i : Nat} {b : Bytes} (hfile : fs.root.at? (R ++ p ++ [name]) = some (.file m b i))
  (content : Content)

include hfile

/-- **A file that may be written holds the bytes of the entry afterwards.** -/
theorem restoreEntry_present (hwrite : (Node.file m b i).allows .write = true) :
    perform (restoreEntry root ⟨relative (p ++ [name]), content⟩) fs =
      (.ok (), { fs with
        root := fs.root.alterFile (R ++ p ++ [name]) (Node.withBytes (written content)) }) := by
  obtain ⟨parent, hparent, hmade⟩ := exists_parent h hp hsize hpass
  have hfind := h.find_present hp hsize hpass true hfile rfl
  rw [perform_restoreEntry hp content hparent hmade, Files.write_present hfind hwrite]
  rfl

/-- A file that may not be written is in the way. -/
theorem restoreEntry_denied (hwrite : (Node.file m b i).allows .write = false) :
    (perform (restoreEntry root ⟨relative (p ++ [name]), content⟩) fs).1 =
      .error (.files (Path.below root (relative (p ++ [name]))) .denied) := by
  obtain ⟨parent, hparent, hmade⟩ := exists_parent h hp hsize hpass
  have hfind := h.find_present hp hsize hpass true hfile rfl
  rw [perform_restoreEntry hp content hparent hmade, Files.write_denied hfind hwrite]
  rfl

end Present

/-! ## Where nothing was -/

/-- One tree is the other with a file in it, and with the directories on the way to it. -/
structure Planted (tree : Node) (R p : Place) (name : String) (b : Bytes) (tree' : Node) : Prop where
  kept : ∀ q c, tree.faceAt? q = some c → tree'.faceAt? q = some c
  made : ∀ q, q <+: p → tree.faceAt? (R ++ q) = none →
    tree'.faceAt? (R ++ q) = some Node.emptyDirectory
  file : tree'.faceAt? (R ++ p ++ [name]) = some (.file Node.fileMode b 0)
  absent : ∀ q, tree.faceAt? q = none → (∀ a, a <+: p ++ [name] → q ≠ R ++ a) →
    tree'.faceAt? q = none

theorem Planted.isExtension {tree tree' : Node} {b : Bytes} (h : Planted tree R p name b tree') :
    tree.Extends tree' :=
  fun q c hc ↦ ⟨c, h.kept q c hc, rfl⟩

/-- A file is put where the directories on the way to it are made. -/
theorem Grown.planted {tree mid above : Node} (h : Grown tree R p mid)
    (habove : mid.at? (R ++ p) = some above) (hdir : above.isDirectory = true)
    (hvacant : mid.at? (R ++ p ++ [name]) = none) (b : Bytes) :
    Planted tree R p name b (mid.put (R ++ p ++ [name]) (.file Node.fileMode b 0)) := by
  have hleaf : (Node.file Node.fileMode b 0).entries = [] := rfl
  have hface := Node.faceAt?_put habove hdir hvacant hleaf
  have hkept : ∀ {q c}, mid.faceAt? q = some c →
      (mid.put (R ++ p ++ [name]) (.file Node.fileMode b 0)).faceAt? q = some c :=
    Node.faceAt?_put_of_eq_some habove hdir hvacant hleaf
  refine ⟨fun q c hc ↦ hkept (h.kept q c hc), fun q hq hnone ↦ hkept (h.made q hq hnone), ?_,
    fun q hnone hq ↦ ?_⟩
  · rw [hface, if_pos rfl]
    rfl
  · have hne : q ≠ R ++ p ++ [name] :=
      fun heq ↦ hq (p ++ [name]) List.prefix_rfl (heq.trans (List.append_assoc ..))
    rw [hface, if_neg hne]
    exact h.absent q hnone fun a ha ↦ hq a (ha.trans (List.prefix_append ..))

/-- **Where nothing was, the file and the directories on the way to it are made.** -/
theorem restoreEntry_vacant (h : Rooted fs root R) (hp : Named (p ++ [name]))
    (hsize : (Path.below root (relative (p ++ [name]))).utf8ByteSize ≤ Files.greatestPath)
    (hclear : Clear fs.root R p)
    (hroom : fs.root.faceAt? (R ++ p) = none ∨ Changeable fs.root (R ++ p))
    (hvacant : fs.root.at? (R ++ p ++ [name]) = none) (hsound : fs.root.Sound) (content : Content) :
    ∃ tree, perform (restoreEntry root ⟨relative (p ++ [name]), content⟩) fs =
        (.ok (), { fs with root := tree }) ∧
      Planted fs.root R p name (written content) tree ∧ tree.Sound := by
  obtain ⟨m, es, hR, -⟩ := Files.searchable_iff.1 h.searchable
  -- the directories on the way
  obtain ⟨parent, mid, hparent, hmade, hgrown, hmid⟩ : ∃ parent mid,
      Path.parent? (Path.below root (relative (p ++ [name]))) = some parent ∧
      perform (Files.createAll parent) fs = (.ok (), { fs with root := mid }) ∧
      Grown fs.root R p mid ∧ mid.Sound := by
    by_cases hne : p = []
    · subst hne
      obtain ⟨parent, hparent, hdir⟩ := h.isDirectory_parent hp.last
      refine ⟨parent, fs.root, hparent, Files.createAll_of_isDirectory h.standing hdir,
        grown_of_at? ?_, hsound⟩
      rw [List.append_nil, hR]
      exact Option.some_ne_none _
    · have hshort := utf8ByteSize_below_le h.ne_empty hne hp.parted
      obtain ⟨mid, hmade, hgrown, hmid⟩ :=
        createAll_below h hp.of_append_left hne (hshort.trans hsize) hclear hsound
      exact ⟨_, mid, parent?_below h.ne_empty hne hp.parted, hmade, hgrown, hmid⟩
  -- the file in the last of them
  have hrooted := h.of_extends hgrown.isExtension
  have hchangeable : Changeable mid (R ++ p) := by
    rcases hroom with hnone | ⟨k, hface, hallows⟩
    · exact Files.changeable_of_emptyDirectory (hgrown.made p List.prefix_rfl hnone)
    · exact ⟨k, hgrown.kept _ _ hface, hallows⟩
  have hpass : Passable mid R p := by
    intro q hq
    rcases hclear.way q hq with hnone | ⟨k, hface, hallows⟩
    · exact (Files.changeable_of_emptyDirectory (hgrown.made q hq hnone)).searchable
    · exact ⟨k, hgrown.kept _ _ hface, hallows⟩
  have hnone : mid.at? (R ++ p ++ [name]) = none := by
    refine Node.faceAt?_eq_none.1 (hgrown.absent _ (Node.faceAt?_eq_none.2 hvacant) ?_)
    rintro a ha heq
    have hlen := congrArg List.length heq
    have hle := ha.length_le
    simp only [List.length_append, List.length_singleton] at hlen
    omega
  have hfind := hrooted.find_vacant hp hsize hpass true hnone
  obtain ⟨k, es', hplace, -⟩ := Files.searchable_iff.1 (hpass p List.prefix_rfl)
  refine ⟨_, ?_, hgrown.planted hplace rfl hnone (written content), hmid.put ?_ (.file _ _ _)⟩
  · rw [perform_restoreEntry hp content hparent hmade,
      Files.write_vacant hfind hchangeable]
    rfl
  · intro n hn
    rcases List.mem_append.1 hn with hn | hn
    · exact (hmid.at? hplace).1 n hn
    · exact List.mem_singleton.1 hn ▸ hp.last

end Transfer
end FirmwareLane
