import FirmwareLane.Proofs.Transfer.Restoring

/-!
# Restoring into an empty directory

In a directory with nothing in it, entries whose places are not on each other's way all find room.
Afterwards their files stand in it, with the directories on the way to them, and nothing else does:
`Holds` says so, and is kept by each entry (`Holds.step`) and so by all of them (`Holds.restore`).
-/

set_option autoImplicit false
namespace FirmwareLane
namespace Transfer

open Action (perform)
open Files (Changeable)
open Text (Bytes)

/-- Neither of two places is on the way to the other. -/
def Apart (p q : Place) : Prop := ¬ p <+: q ∧ ¬ q <+: p

/-- The bytes of a new file at a place. -/
def newFile (b : Bytes) : Node := .file Node.fileMode b 0

/-- Below a place stand files, the directories on the way to them, and nothing else. -/
structure Holds (tree : Node) (R : Place) (files : List (Place × Bytes)) : Prop where
  root : Changeable tree R
  file : ∀ p b, (p, b) ∈ files → tree.faceAt? (R ++ p) = some (newFile b)
  only : ∀ q c, q ≠ [] → tree.faceAt? (R ++ q) = some c →
    (∃ b, (q, b) ∈ files ∧ c = newFile b) ∨
      (c = Node.emptyDirectory ∧ ∃ p b, (p, b) ∈ files ∧ q <+: p ∧ q ≠ p)

namespace Holds

variable {tree tree' : Node} {R p : Place} {name : String} {files : List (Place × Bytes)} {b : Bytes}

theorem nil {m : Nat} (hdir : tree.at? R = some (.directory m []))
    (hwrite : (Node.directory m []).allows .write = true)
    (hsearch : (Node.directory m []).allows .search = true) : Holds tree R [] where
  root := ⟨m, Node.faceAt?_eq_directory.2 ⟨[], hdir⟩, hwrite, hsearch⟩
  file _ _ h := absurd h List.not_mem_nil
  only q c hq hc := by
    rw [Node.faceAt?_append hdir] at hc
    cases q with
    | nil => exact absurd rfl hq
    | cons name rest => exact nomatch hc

/-- What stands where no file of the list is on the way to, and none is on the way. -/
theorem none_of_apart (h : Holds tree R files) (hp : p ≠ [])
    (hapart : ∀ x ∈ files, Apart x.1 p) : tree.faceAt? (R ++ p) = none := by
  cases hc : tree.faceAt? (R ++ p) with
  | none => rfl
  | some c =>
    rcases h.only p c hp hc with ⟨b, hb, -⟩ | ⟨-, q, b, hb, hq, -⟩
    · exact absurd List.prefix_rfl (hapart _ hb).1
    · exact absurd hq (hapart _ hb).2

/-- Nothing is in the way of a place that is apart from the files. -/
theorem ready (h : Holds tree R files) (hapart : ∀ x ∈ files, Apart x.1 (p ++ [name])) :
    Ready tree R p := by
  intro q hq
  by_cases hne : q = []
  · subst hne
    rw [List.append_nil]
    exact .inr h.root
  · cases hc : tree.faceAt? (R ++ q) with
    | none => exact .inl rfl
    | some c =>
      rcases h.only q c hne hc with ⟨b, hb, -⟩ | ⟨rfl, -⟩
      · exact absurd (hq.trans (List.prefix_append ..)) (hapart _ hb).1
      · exact .inr (Files.changeable_of_emptyDirectory hc)

/-- **One file more stands where nothing was in its way.** -/
theorem planted (h : Holds tree R files) (hplanted : Planted tree R p name b tree') :
    Holds tree' R (files ++ [(p ++ [name], b)]) where
  root := by
    obtain ⟨m, hface, hallows⟩ := h.root
    exact ⟨m, hplanted.kept _ _ hface, hallows⟩
  file q c hmem := by
    rcases List.mem_append.1 hmem with hmem | hmem
    · exact hplanted.kept _ _ (h.file q c hmem)
    · obtain ⟨rfl, rfl⟩ := Prod.mk.inj (List.mem_singleton.1 hmem)
      rw [← List.append_assoc]
      exact hplanted.file
  only q c hq hc := by
    have hnew : (p ++ [name], b) ∈ files ++ [(p ++ [name], b)] :=
      List.mem_append_right _ (List.mem_singleton_self _)
    cases hold : tree.faceAt? (R ++ q) with
    | some d =>
      obtain rfl : d = c := Option.some.inj ((hplanted.kept _ _ hold).symm.trans hc)
      rcases h.only q d hq hold with ⟨b', hb', heq⟩ | ⟨heq, q', b', hb', hq', hne⟩
      · exact .inl ⟨b', List.mem_append_left _ hb', heq⟩
      · exact .inr ⟨heq, q', b', List.mem_append_left _ hb', hq', hne⟩
    | none =>
      by_cases hway : q <+: p ++ [name]
      · rcases List.prefix_concat_iff.1 hway with rfl | hway
        · have hfile := hplanted.file
          rw [List.append_assoc] at hfile
          exact .inl ⟨b, hnew, Option.some.inj (hc.symm.trans hfile)⟩
        · have hmade := hplanted.made q hway hold
          refine .inr ⟨Option.some.inj (hc.symm.trans hmade), _, b, hnew,
            hway.trans (List.prefix_append ..), ?_⟩
          rintro rfl
          have hlen := hway.length_le
          rw [List.length_append, List.length_singleton] at hlen
          omega
      · have habsent := hplanted.absent _ hold fun a ha heq ↦ hway (List.append_cancel_left heq ▸ ha)
        rw [habsent] at hc
        exact nomatch hc

variable {fs : Files} {root : String}

/-- **Restoring an entry that is apart from the files puts its file beside them.** -/
theorem step (h : Holds fs.root R files) (hrooted : Rooted fs root R) (hsound : fs.root.Sound)
    (hp : Named p) (hne : p ≠ [])
    (hsize : (Path.below root (relative p)).utf8ByteSize ≤ Files.greatestPath)
    (hapart : ∀ x ∈ files, Apart x.1 p) (content : Content) :
    ∃ tree, perform (restoreEntry root ⟨relative p, content⟩) fs =
        (.ok (), { fs with root := tree }) ∧
      Holds tree R (files ++ [(p, written content)]) ∧ fs.root.Extends tree ∧ tree.Sound := by
  obtain ⟨above, name, rfl⟩ := (List.eq_nil_or_concat' p).resolve_left hne
  have hvacant := Node.faceAt?_eq_none.1 (h.none_of_apart hne hapart)
  rw [← List.append_assoc] at hvacant
  obtain ⟨tree, hperform, hplanted, htree⟩ :=
    restoreEntry_vacant hrooted hp hsize (h.ready hapart).clear (h.ready hapart _ List.prefix_rfl)
      hvacant hsound content
  exact ⟨tree, hperform, h.planted hplanted, hplanted.isExtension, htree⟩

/-- **Restoring entries that are apart puts their files there, and nothing else.** -/
theorem restore (h : Holds fs.root R files) (hrooted : Rooted fs root R) (hsound : fs.root.Sound)
    {entries : List (Place × Content)} (hnamed : ∀ x ∈ entries, Named x.1 ∧ x.1 ≠ [])
    (hsize : ∀ x ∈ entries, (Path.below root (relative x.1)).utf8ByteSize ≤ Files.greatestPath)
    (hapart : entries.Pairwise fun x y ↦ Apart x.1 y.1)
    (hfiles : ∀ x ∈ files, ∀ y ∈ entries, Apart x.1 y.1) :
    ∃ tree, perform ((entries.map fun x ↦ Entry.mk (relative x.1) x.2).forM (restoreEntry root))
        fs = (.ok (), { fs with root := tree }) ∧
      Holds tree R (files ++ entries.map fun x ↦ (x.1, written x.2)) ∧
      fs.root.Extends tree ∧ tree.Sound := by
  induction entries generalizing fs files with
  | nil =>
    refine ⟨fs.root, rfl, ?_, .refl _, hsound⟩
    rw [List.map_nil, List.append_nil]
    exact h
  | cons x rest ih =>
    obtain ⟨hhead, htail⟩ := List.pairwise_cons.1 hapart
    obtain ⟨hx, hrest⟩ := List.forall_mem_cons.1 hnamed
    obtain ⟨hsizex, hsizerest⟩ := List.forall_mem_cons.1 hsize
    obtain ⟨tree, hperform, hholds, hext, htree⟩ := h.step hrooted hsound hx.1 hx.2 hsizex
      (fun y hy ↦ hfiles y hy x List.mem_cons_self) x.2
    have hfiles' : ∀ y ∈ files ++ [(x.1, written x.2)], ∀ z ∈ rest, Apart y.1 z.1 := by
      intro y hy z hz
      rcases List.mem_append.1 hy with hy | hy
      · exact hfiles y hy z (List.mem_cons_of_mem _ hz)
      · rw [List.mem_singleton.1 hy]
        exact hhead z hz
    obtain ⟨tree', hperform', hholds', hext', htree'⟩ :=
      ih hholds (hrooted.of_extends hext) htree hrest hsizerest htail hfiles'
    refine ⟨tree', ?_, ?_, hext.trans hext', htree'⟩
    · exact (Action.perform_bind_ok hperform _).trans hperform'
    · rwa [List.append_assoc] at hholds'

end Holds

end Transfer
end FirmwareLane
