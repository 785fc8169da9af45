import FirmwareLane.Proofs.Files.Sound

/-!
# One directory of a tree

What happens in one directory of a tree is seen below its place, and nowhere else.  A change there
is a change of the node at the place, put back where it was: `Files.within` are the files with
another node at a place.

A sound tree is known by what stands at its places (`Node.Sound.ext`), so two changes that are seen
alike are the same change.  This is how the lemmas on `put` are proved that need no look at the
entries of directories: `put_put`, `erase_put`, `put_self`, `put_append` and `alterFile_append`.
-/

set_option autoImplicit false
namespace FirmwareLane
namespace Node

open Text (Bytes)

/-- **Sound trees in which the same stands everywhere are equal.** -/
theorem Sound.ext {root root' : Node} (h : root.Sound) (h' : root'.Sound)
    (heq : ∀ p, root.faceAt? p = root'.faceAt? p) : root = root' := by
  induction h generalizing root' with
  | file m b i => exact (face_eq_file.1 (Option.some.inj (heq [])).symm).symm
  | link target =>
    have hface : Node.link target = root'.face := Option.some.inj (heq [])
    cases root' with
    | link target' => exact hface
    | file m b i => cases hface
    | directory m es => cases hface
    | device d => cases hface
  | device d =>
    have hface : Node.device d = root'.face := Option.some.inj (heq [])
    cases root' with
    | device d' => exact hface
    | file m b i => cases hface
    | directory m es => cases hface
    | link target => cases hface
  | @directory m es sorted named sound ih =>
    obtain ⟨es', rfl⟩ := face_eq_directory.1 (Option.some.inj (heq [])).symm
    cases h' with
    | directory _ sorted' named' sound' =>
      refine congrArg _ (sorted.ext sorted' fun name ↦ ?_)
      have hname := fun p ↦ heq (name :: p)
      simp only [faceAt?_cons, entries] at hname
      cases hc : es.lookup name with
      | none =>
        rw [hc] at hname
        cases hc' : es'.lookup name with
        | none => rfl
        | some c' => rw [hc'] at hname; cases hname []
      | some c =>
        rw [hc] at hname
        cases hc' : es'.lookup name with
        | none => rw [hc'] at hname; cases hname []
        | some c' =>
          rw [hc'] at hname
          exact congrArg some (ih _ (Keyed.mem_of_lookup hc) (sound' _ (Keyed.mem_of_lookup hc')) hname)

/-! ## Where something can be put -/

/-- Something can be put at a place: that of the root, or one in a directory. -/
inductive Holds (root : Node) : Place → Prop
  | root : Holds root []
  | entry {p : Place} {m : Nat} {es : List (String × Node)}
      (h : root.at? p = some (directory m es)) (name : String) : Holds root (p ++ [name])

variable {root n n' x : Node} {R q : Place}

theorem holds_of_at? (h : root.at? R = some n) : root.Holds R := by
  rcases List.eq_nil_or_concat' R with rfl | ⟨p, name, rfl⟩
  · exact .root
  · obtain ⟨m, es, hp⟩ := exists_directory_of_at? (List.cons_ne_nil name []) h
    exact .entry hp name

theorem Holds.append (hR : root.at? R = some n) (h : n.Holds q) : root.Holds (R ++ q) := by
  cases h with
  | root => rw [List.append_nil]; exact holds_of_at? hR
  | entry h name =>
    rw [← List.append_assoc]
    exact .entry (by rw [at?_append, hR]; exact h) name

/-! ## What stands where when something was put -/

/-- **What is put at a place is seen there and below, and nothing else is seen to change.** -/
theorem Holds.faceAt?_put (h : root.Holds R) (n : Node) (q : Place) :
    (root.put R n).faceAt? q =
      if R <+: q then n.faceAt? (q.drop R.length) else root.faceAt? q := by
  cases h with
  | root => rw [if_pos List.nil_prefix]; rfl
  | entry h name =>
    rw [put, faceAt?_alter h rfl, Option.bind_some, List.length_append, List.length_singleton]

theorem Holds.faceAt?_put_append (h : root.Holds R) (n : Node) (q : Place) :
    (root.put R n).faceAt? (R ++ q) = n.faceAt? q := by
  rw [h.faceAt?_put, if_pos (List.prefix_append ..), List.drop_left]

theorem Holds.faceAt?_put_outside (h : root.Holds R) (n : Node) (hq : ¬ R <+: q) :
    (root.put R n).faceAt? q = root.faceAt? q := by
  rw [h.faceAt?_put, if_neg hq]

theorem lookup_put (first : String) (rest : Place) (m : Nat) (es : List (String × Node))
    (n : Node) (name : String) :
    ((directory m es).put (first :: rest) n).entries.lookup name =
      if name = first then
        if rest = [] then some n else (es.lookup first).map fun child ↦ child.put rest n
      else es.lookup name := by
  cases rest with
  | nil => rw [put, alter, entries, Keyed.lookup_alter, if_pos rfl]
  | cons next more =>
    have hmore : ¬ next :: more = [] := List.cons_ne_nil next more
    rw [put, alter_cons hmore, entries, Keyed.lookup_alter, if_neg hmore]
    rfl

/-- What was put at a place is there. -/
theorem Holds.at?_put (h : root.Holds R) (n : Node) : (root.put R n).at? R = some n := by
  have hput : ∀ {p : Place} {root : Node} {m : Nat} {es : List (String × Node)} (name : String),
      root.at? p = some (directory m es) → (root.put (p ++ [name]) n).at? (p ++ [name]) = some n := by
    intro p
    induction p with
    | nil =>
      intro root m es name hp
      obtain rfl : root = directory m es := Option.some.inj hp
      rw [List.nil_append, at?, lookup_put, if_pos rfl, if_pos rfl]
      rfl
    | cons first rest ih =>
      intro root m es name hp
      rw [at?, Option.bind_eq_some_iff] at hp
      obtain ⟨child, hchild, hrest⟩ := hp
      obtain ⟨k, es', rfl⟩ := exists_directory_of_lookup hchild
      rw [List.cons_append, at?, lookup_put, if_pos rfl, if_neg (by simp)]
      rw [show es'.lookup first = some child from hchild]
      exact ih name hrest
  cases h with
  | root => rfl
  | entry h name => exact hput name h

theorem Holds.at?_put_append (h : root.Holds R) (n : Node) (q : Place) :
    (root.put R n).at? (R ++ q) = n.at? q := by
  rw [at?_append, h.at?_put]
  rfl

/-! ## One change after another -/

section Sound

variable (hroot : root.Sound) (hR : ∀ name ∈ R, IsName name)

theorem names_of_at? (hroot : root.Sound) (h : root.at? R = some n) : ∀ name ∈ R, IsName name :=
  (hroot.at? h).1

include hroot

theorem put_put (hR : ∀ name ∈ R, IsName name) (h : root.Holds R) (hn : n.Sound) (hn' : n'.Sound) :
    (root.put R n).put R n' = root.put R n' := by
  have hput := hroot.put hR hn
  have hholds := holds_of_at? (h.at?_put n)
  refine (hput.put hR hn').ext (hroot.put hR hn') fun q ↦ ?_
  rw [hholds.faceAt?_put, h.faceAt?_put, h.faceAt?_put]
  split <;> rfl

theorem put_self (h : root.at? R = some n) : root.put R n = root := by
  obtain ⟨hnames, hn⟩ := hroot.at? h
  refine (hroot.put hnames hn).ext hroot fun q ↦ ?_
  rw [(holds_of_at? h).faceAt?_put]
  split
  · next hq =>
    obtain ⟨rest, rfl⟩ := hq
    rw [List.drop_left, faceAt?_append h]
  · rfl

/-- What is put below a place is put below the node there. -/
theorem put_append (h : root.at? R = some n) (hq : ∀ name ∈ q, IsName name) (hholds : n.Holds q)
    (hx : x.Sound) : root.put (R ++ q) x = root.put R (n.put q x) := by
  obtain ⟨hnames, hn⟩ := hroot.at? h
  have hall : ∀ name ∈ R ++ q, IsName name :=
    fun name hmem ↦ (List.mem_append.1 hmem).elim (hnames name) (hq name)
  refine (hroot.put hall hx).ext (hroot.put hnames (hn.put hq hx)) fun p ↦ ?_
  rw [(hholds.append h).faceAt?_put, (holds_of_at? h).faceAt?_put]
  by_cases hp : R <+: p
  · obtain ⟨p, rfl⟩ := hp
    rw [if_pos (List.prefix_append ..), List.drop_left, hholds.faceAt?_put, faceAt?_append h,
      List.length_append, ← List.drop_drop, List.drop_left]
    simp only [List.prefix_append_right_inj]
  · rw [if_neg hp, if_neg fun hpq ↦ hp ((List.prefix_append ..).trans hpq)]

/-- Other bytes for a file below a place are other bytes for a file below the node there, if the file
has no names elsewhere. -/
theorem alterFile_append (h : root.at? R = some n) {p : Place} {name : String} {m i : Nat}
    {c : Bytes} (hfile : n.at? (p ++ [name]) = some (file m c i))
    (honly : i ≠ 0 → ∀ q m' c', root.at? q = some (file m' c' i) → R <+: q) (b : Bytes) :
    root.alterFile (R ++ (p ++ [name])) (withBytes b) =
      root.put R (n.alterFile (p ++ [name]) (withBytes b)) := by
  obtain ⟨hnames, hn⟩ := hroot.at? h
  refine (hroot.alterFile b).ext (hroot.put hnames (hn.alterFile b)) fun q ↦ ?_
  have hfile' : root.at? (R ++ p ++ [name]) = some (file m c i) := by
    rw [List.append_assoc, at?_append, h]
    exact hfile
  rw [← List.append_assoc, faceAt?_alterFile hfile', (holds_of_at? h).faceAt?_put]
  by_cases hq : R <+: q
  · obtain ⟨q, rfl⟩ := hq
    rw [if_pos (List.prefix_append ..), List.drop_left, faceAt?_alterFile hfile, faceAt?_append h,
      List.append_assoc]
    cases n.faceAt? q with
    | none => rfl
    | some c => cases c <;> simp [rewritten]
  · rw [if_neg hq]
    refine map_rewritten_eq_self (fun heq ↦ hq ?_) (fun m' c' hc ↦ ?_) b
    · rw [heq, List.append_assoc]
      exact List.prefix_append ..
    · by_contra hi
      exact hq (honly hi _ _ _ hc)

end Sound

/-! ## What is there stays when something is put where nothing was -/

/-- What stands in a tree stands there still when nodes come, go and change where nothing was. -/
theorem Extends.put {base : Node} (h : base.Extends root) (hholds : root.Holds R)
    (hnone : base.at? R = none) (n : Node) : base.Extends (root.put R n) := by
  intro q c hc
  rw [hholds.faceAt?_put_outside n]
  · exact h q c hc
  · rintro ⟨rest, rfl⟩
    rw [faceAt?, at?_append, hnone] at hc
    cases hc

end Node

namespace Files

/-- The files with another node at a place. -/
def within (fs : Files) (R : Place) (n : Node) : Files := { fs with root := fs.root.put R n }

@[simp] theorem root_within (fs : Files) (R : Place) (n : Node) :
    (fs.within R n).root = fs.root.put R n := rfl

@[simp] theorem here_within (fs : Files) (R : Place) (n : Node) : (fs.within R n).here = fs.here :=
  rfl

end Files
end FirmwareLane
