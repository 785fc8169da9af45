import FirmwareLane.Proofs.Files.Sound

/-!
# Trees that differ in identities only

Which number a file is known by says nothing about the file: only which files share one does.  Two
trees are the same in this sense if one becomes the other when its identities are renumbered, each
to one of its own (`Relabelled`).

The permissions of a tree and its being sound do not depend on identities, and giving every file
other permissions renumbers none.
-/

set_option autoImplicit false
namespace FirmwareLane
namespace Node

mutual

/-- The tree with other identities. -/
def relabel (f : Nat → Nat) : Node → Node
  | file m b i => file m b (f i)
  | directory m es => directory m (entriesRelabel f es)
  | other => other

/-- The entries with other identities. -/
def entriesRelabel (f : Nat → Nat) : List (String × Node) → List (String × Node)
  | [] => []
  | (name, node) :: rest => (name, node.relabel f) :: entriesRelabel f rest

end

/-- Different identities are renumbered differently, and what has none gets none. -/
structure IsRenumbering (f : Nat → Nat) : Prop where
  injective : ∀ i j, f i = f j → i = j
  zero : f 0 = 0

theorem isRenumbering_id : IsRenumbering fun i ↦ i := ⟨fun _ _ h ↦ h, rfl⟩

/-- A tree is another one with its identities renumbered. -/
def Relabelled (n n' : Node) : Prop := ∃ f, IsRenumbering f ∧ n.relabel f = n'

variable {n n' : Node} {f : Nat → Nat}

theorem entriesRelabel_eq_map (f : Nat → Nat) (es : List (String × Node)) :
    entriesRelabel f es = es.map fun (name, n) ↦ (name, n.relabel f) := by
  induction es with
  | nil => rw [entriesRelabel]; rfl
  | cons entry rest ih => rw [entriesRelabel, ih]; rfl

theorem isDirectory_relabel (f : Nat → Nat) (n : Node) : (n.relabel f).isDirectory = n.isDirectory := by
  cases n <;> rfl

theorem Sound.relabel (h : n.Sound) (f : Nat → Nat) : (n.relabel f).Sound := by
  induction h with
  | file m b i => exact .file m b (f i)
  | link target => exact .link target
  | device d => exact .device d
  | @directory m es sorted named sound ih =>
    rw [Node.relabel, entriesRelabel_eq_map]
    exact .directory_map m _ sorted named ih

/-- Renumbering each identity by itself changes nothing. -/
theorem Sound.relabel_id (h : n.Sound) : n.relabel (fun i ↦ i) = n := by
  induction h with
  | file m b i => rfl
  | link target => rfl
  | device d => rfl
  | @directory m es sorted named sound ih =>
    rw [Node.relabel, entriesRelabel_eq_map]
    refine congrArg _ ((List.map_congr_left fun entry he ↦ ?_).trans (List.map_id es))
    exact Prod.ext rfl (ih entry he)

theorem Sound.withModes_relabel (h : n.Sound) (f : Nat → Nat) (m : Nat) :
    (n.relabel f).withModes m = (n.withModes m).relabel f := by
  induction h with
  | file k b i => rfl
  | link target => rfl
  | device d => rfl
  | @directory k es sorted named sound ih =>
    have hes : entriesWithModes m (entriesRelabel f es) = entriesRelabel f (entriesWithModes m es) := by
      rw [entriesRelabel_eq_map, entriesRelabel_eq_map, entriesWithModes_eq_map,
        entriesWithModes_eq_map, List.map_map, List.map_map]
      exact List.map_congr_left fun entry he ↦ Prod.ext rfl (ih entry he)
    have hallows : (Node.directory k (entriesRelabel f es)).allows .read =
        (Node.directory k es).allows .read := rfl
    rw [Node.relabel, Node.withModes, Node.withModes, Node.relabel, hallows, hes]
    split <;> rfl

/-- An entry of a renumbered directory is put there as in the directory itself. -/
theorem Sound.put_relabel (h : n.Sound) (f : Nat → Nat) (name : String) (c : Node) :
    (n.relabel f).put [name] (c.relabel f) = (n.put [name] c).relabel f := by
  cases h with
  | file m b i => rfl
  | link target => rfl
  | device d => rfl
  | @directory m es sorted named sound =>
    rw [Node.put, Node.put, Node.relabel, Node.alter, Node.alter, Node.relabel,
      entriesRelabel_eq_map, entriesRelabel_eq_map]
    refine congrArg _ (Keyed.Sorted.ext ((sorted.map _).alter _ _) ((sorted.alter _ _).map _)
      fun other ↦ ?_)
    rw [Keyed.lookup_alter, Keyed.lookup_map, Keyed.lookup_map, Keyed.lookup_alter]
    split <;> rfl

namespace Relabelled

theorem refl (h : n.Sound) : Relabelled n n := ⟨_, isRenumbering_id, h.relabel_id⟩

theorem isDirectory (h : Relabelled n n') : n'.isDirectory = n.isDirectory := by
  obtain ⟨f, -, rfl⟩ := h
  exact isDirectory_relabel f n

theorem sound (h : Relabelled n n') (hn : n.Sound) : n'.Sound := by
  obtain ⟨f, -, rfl⟩ := h
  exact hn.relabel f

theorem withModes (h : Relabelled n n') (hn : n.Sound) (m : Nat) :
    Relabelled (n.withModes m) (n'.withModes m) := by
  obtain ⟨f, hf, rfl⟩ := h
  exact ⟨f, hf, (hn.withModes_relabel f m).symm⟩

end Relabelled

end Node
end FirmwareLane
