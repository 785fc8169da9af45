import FirmwareLane.Proofs.Transfer.Capturing
import FirmwareLane.Proofs.Transfer.Restoring

/-!
# Restoring over the files that were captured

An entry whose file is still there is written over it, and so, if the file has other names, under
all of them.  `Rewritten` says what is seen of the tree after some entries: the same as before, but
in every file the bytes that were written to it last.
-/

set_option autoImplicit false
namespace FirmwareLane
namespace Transfer

open Action (perform)
open Files (Passable)
open Text (Bytes)

/-! ## Files that are in their places -/

/-- A found file stands at its place below a root, and the path to it can be followed. -/
structure InPlace (tree : Node) (root : String) (R : Place) (f : Found) : Prop where
  named : Named f.place
  nonempty : f.place ≠ []
  size : (Path.below root (relative f.place)).utf8ByteSize ≤ Files.greatestPath
  passable : Passable tree R f.place.dropLast
  file : tree.at? (R ++ f.place) = some (.file f.mode f.bytes f.identity)

/-- The found file may be written. -/
def Found.MayWrite (f : Found) : Prop := (Node.file f.mode f.bytes f.identity).allows .write = true

/-- Two found files are one, under one name or under two. -/
def Found.Same (f g : Found) : Prop :=
  f.place = g.place ∨ (g.identity ≠ 0 ∧ f.identity = g.identity)

instance (f g : Found) : Decidable (f.Same g) := inferInstanceAs (Decidable (_ ∨ _))

/-! ## What is seen after some entries -/

variable {tree tree' : Node} {R : Place} {root : String} {fs : Files}
  {done entries : List (Found × Content)}

/-- What is seen of a node at a place after entries were written. -/
def rewrites (R : Place) (entries : List (Found × Content)) (q : Place) (n : Node) : Node :=
  entries.foldl
    (fun n x ↦ Node.rewritten (R ++ x.1.place) x.1.identity (written x.2) q n) n

theorem rewrites_concat (x : Found × Content) (q : Place) (n : Node) :
    rewrites R (done ++ [x]) q n =
      Node.rewritten (R ++ x.1.place) x.1.identity (written x.2) q (rewrites R done q n) := by
  rw [rewrites, List.foldl_append]
  rfl

theorem outline_rewrites (R : Place) (done : List (Found × Content)) (q : Place) (n : Node) :
    (rewrites R done q n).outline = n.outline := by
  induction done using List.reverseRecOn with
  | nil => rfl
  | append_singleton front x ih => rw [rewrites_concat, Node.outline_rewritten, ih]

/-- A file stays the same file. -/
theorem exists_rewrites_file (R : Place) (done : List (Found × Content)) (q : Place) (m : Nat)
    (b : Bytes) (i : Nat) : ∃ b', rewrites R done q (.file m b i) = .file m b' i := by
  induction done using List.reverseRecOn with
  | nil => exact ⟨b, rfl⟩
  | append_singleton front x ih =>
    obtain ⟨b', hb'⟩ := ih
    rw [rewrites_concat, hb']
    exact ⟨_, rfl⟩

/-- A tree after entries were written to it. -/
def Rewritten (tree : Node) (R : Place) (done : List (Found × Content)) (tree' : Node) : Prop :=
  ∀ q, tree'.faceAt? q = (tree.faceAt? q).map (rewrites R done q)

namespace Rewritten

theorem refl (tree : Node) (R : Place) : Rewritten tree R [] tree := by
  intro q
  exact Option.map_id'.symm

theorem outline (h : Rewritten tree R done tree') (q : Place) :
    (tree'.faceAt? q).map Node.outline = (tree.faceAt? q).map Node.outline := by
  rw [h q, Option.map_map]
  exact congrArg (Option.map · _) (funext (outline_rewrites R done q))

theorem isExtension (h : Rewritten tree R done tree') : tree.Extends tree' := by
  intro q c hc
  refine ⟨rewrites R done q c, ?_, outline_rewrites R done q c⟩
  rw [h q, hc]
  rfl

theorem passable {p : Place} (h : Rewritten tree R done tree') (hpass : Passable tree R p) :
    Passable tree' R p :=
  fun q hq ↦ (hpass q hq).of_extends h.isExtension

/-- A file is still in its place, though with other bytes. -/
theorem exists_file {f : Found} (h : Rewritten tree R done tree') (hf : InPlace tree root R f) :
    ∃ above name b, f.place = above ++ [name] ∧ Passable tree' R above ∧
      tree'.at? (R ++ above ++ [name]) = some (.file f.mode b f.identity) := by
  obtain ⟨above, name, hplace⟩ := (List.eq_nil_or_concat' f.place).resolve_left hf.nonempty
  have hpass := hf.passable
  have hfile := hf.file
  rw [hplace, List.dropLast_concat] at hpass
  rw [hplace, ← List.append_assoc] at hfile
  obtain ⟨b, hb⟩ := exists_rewrites_file R done (R ++ above ++ [name]) f.mode f.bytes f.identity
  refine ⟨above, name, b, hplace, h.passable hpass, ?_⟩
  rw [← Node.faceAt?_eq_file, h, Node.faceAt?_eq_file.2 hfile, ← hb]
  rfl

section Step

variable {f : Found} (h : Rewritten tree R done fs.root) (hrooted : Rooted fs root R)
  (hf : InPlace tree root R f) (content : Content)

include h hrooted hf

/-- **An entry is written over its file.** -/
theorem step (hwrite : f.MayWrite) (hsound : fs.root.Sound) :
    ∃ tree', perform (restoreEntry root ⟨relative f.place, content⟩) fs =
        (.ok (), { fs with root := tree' }) ∧
      Rewritten tree R (done ++ [(f, content)]) tree' ∧ fs.root.Extends tree' ∧ tree'.Sound := by
  obtain ⟨above, name, b, hplace, hpass, hfile⟩ := h.exists_file hf
  have hnamed := hf.named
  have hsize := hf.size
  rw [hplace] at hnamed hsize ⊢
  refine ⟨_, restoreEntry_present hrooted hnamed hsize hpass hfile content hwrite, fun q ↦ ?_,
    Node.extends_alterFile hfile _, hsound.alterFile _⟩
  rw [Node.faceAt?_alterFile hfile, h q, Option.map_map]
  refine congrArg (Option.map · _) (funext fun n ↦ ?_)
  rw [Function.comp_apply, rewrites_concat, hplace, List.append_assoc]

/-- An entry whose file may not be written fails. -/
theorem mayWrite_of_step {fs' : Files}
    (hperform : perform (restoreEntry root ⟨relative f.place, content⟩) fs = (.ok (), fs')) :
    f.MayWrite := by
  obtain ⟨above, name, b, hplace, hpass, hfile⟩ := h.exists_file hf
  have hnamed := hf.named
  have hsize := hf.size
  rw [hplace] at hnamed hsize hperform
  by_contra hno
  have hdenied := restoreEntry_denied hrooted hnamed hsize hpass hfile content
    (Bool.eq_false_iff.2 hno)
  rw [hperform] at hdenied
  exact nomatch hdenied

end Step

/-- **Entries are written over their files, exactly if all of these may be written.** -/
theorem restore (h : Rewritten tree R done fs.root) (hrooted : Rooted fs root R)
    (hsound : fs.root.Sound) (hf : ∀ x ∈ entries, InPlace tree root R x.1)
    (hwrite : ∀ x ∈ entries, x.1.MayWrite) :
    ∃ tree', perform ((entries.map fun x ↦ Entry.mk (relative x.1.place) x.2).forM
        (restoreEntry root)) fs = (.ok (), { fs with root := tree' }) ∧
      Rewritten tree R (done ++ entries) tree' ∧ fs.root.Extends tree' ∧ tree'.Sound := by
  induction entries generalizing fs done with
  | nil =>
    refine ⟨fs.root, rfl, ?_, .refl _, hsound⟩
    rw [List.append_nil]
    exact h
  | cons x rest ih =>
    obtain ⟨tree', hperform, h', hext, hsound'⟩ := h.step hrooted (hf x List.mem_cons_self) x.2
      (hwrite x List.mem_cons_self) hsound
    have hrooted' := hrooted.of_extends hext
    obtain ⟨tree'', hperform', h'', hext', hsound''⟩ := ih h' hrooted' hsound'
      (fun y hy ↦ hf y (List.mem_cons_of_mem _ hy)) fun y hy ↦ hwrite y (List.mem_cons_of_mem _ hy)
    refine ⟨tree'', (Action.perform_bind_ok hperform _).trans hperform', ?_, hext.trans hext',
      hsound''⟩
    rwa [List.append_assoc] at h''

theorem mayWrite_of_restore (h : Rewritten tree R done fs.root) (hrooted : Rooted fs root R)
    (hsound : fs.root.Sound) (hf : ∀ x ∈ entries, InPlace tree root R x.1) {fs' : Files}
    (hperform : perform ((entries.map fun x ↦ Entry.mk (relative x.1.place) x.2).forM
      (restoreEntry root)) fs = (.ok (), fs')) :
    ∀ x ∈ entries, x.1.MayWrite := by
  induction entries generalizing fs done with
  | nil => exact fun _ hx ↦ absurd hx List.not_mem_nil
  | cons x rest ih =>
    have hfirst := hf x List.mem_cons_self
    rw [List.map_cons, Action.perform_forM_cons, Action.perform_bind] at hperform
    split at hperform
    · next fs'' hstep =>
      have hwrite := h.mayWrite_of_step hrooted hfirst x.2 hstep
      obtain ⟨tree', hperform', h', hext, hsound'⟩ := h.step hrooted hfirst x.2 hwrite hsound
      obtain rfl := (Prod.mk.inj (hstep.symm.trans hperform')).2
      intro y hy
      rcases List.mem_cons.1 hy with rfl | hy
      · exact hwrite
      · exact ih h' (hrooted.of_extends hext) hsound' (fun z hz ↦ hf z (List.mem_cons_of_mem _ hz))
          hperform y hy
    · exact nomatch (Prod.mk.inj hperform).1

end Rewritten

end Transfer
end FirmwareLane
