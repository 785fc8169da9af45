import FirmwareLane.Files.Node
import Mathlib.Data.List.Infix

/-!
# What stands in a tree

A tree is known by what stands at each of its places: a file with its bytes, a link with its target,
or a directory with its permissions.  `faceAt?` tells this for one place and leaves out what is in a
directory, which stands at places of its own; so a change of the tree at one place is seen at that
place, and nowhere else.

## What is here

* `faceAt?_alter` and `faceAt?_put`: what a change at one place does to all of them.
* `faceAt?_alterFile`: what other bytes do to a file, which may stand at several places.
* `Extends`: nothing is gone and nothing has become something else.
-/

set_option autoImplicit false
namespace FirmwareLane
namespace Node

open Text (Bytes)

/-! ## Nodes at places -/

theorem at?_append (p q : Place) (n : Node) : n.at? (p ++ q) = (n.at? p).bind (at? q) := by
  induction p generalizing n with
  | nil => rfl
  | cons name rest ih =>
    rw [List.cons_append, at?, at?]
    cases n.entries.lookup name with
    | none => rfl
    | some child => exact ih child

theorem at?_concat (p : Place) (name : String) (n : Node) :
    n.at? (p ++ [name]) = (n.at? p).bind fun above ↦ above.entries.lookup name := by
  rw [at?_append]
  congr 1
  funext above
  exact Option.bind_fun_some _

/-- Only a directory has something in it. -/
theorem exists_directory_of_lookup {n c : Node} {name : String}
    (h : n.entries.lookup name = some c) : ∃ m es, n = directory m es := by
  cases n with
  | directory m es => exact ⟨m, es, rfl⟩
  | file m b i => exact nomatch h
  | link target => exact nomatch h
  | device d => exact nomatch h

/-- Above everything stands a directory. -/
theorem exists_directory_of_at? {p q : Place} {n c : Node} (hq : q ≠ [])
    (h : n.at? (p ++ q) = some c) : ∃ m es, n.at? p = some (directory m es) := by
  rw [at?_append, Option.bind_eq_some_iff] at h
  obtain ⟨above, habove, hc⟩ := h
  cases q with
  | nil => exact absurd rfl hq
  | cons name rest =>
    rw [at?, Option.bind_eq_some_iff] at hc
    obtain ⟨child, hchild, -⟩ := hc
    obtain ⟨m, es, rfl⟩ := exists_directory_of_lookup hchild
    exact ⟨m, es, habove⟩

/-! ## What is seen of a node -/

/-- A node without the nodes in it. -/
def face : Node → Node
  | directory m _ => directory m []
  | other => other

/-- What stands at a place. -/
def faceAt? (root : Node) (place : Place) : Option Node := (root.at? place).map face

@[simp] theorem mode_face (n : Node) : n.face.mode = n.mode := by cases n <;> rfl

@[simp] theorem allows_face (n : Node) (p : Permission) : n.face.allows p = n.allows p := by
  simp only [allows, mode_face]

theorem face_eq_directory {n : Node} {m : Nat} :
    n.face = directory m [] ↔ ∃ es, n = directory m es := by
  cases n with
  | directory k es =>
    simp only [face, directory.injEq, and_true, exists_eq_right']
  | file k b i => simp [face]
  | link target => simp [face]
  | device d => simp [face]

theorem face_eq_file {n : Node} {m : Nat} {b : Bytes} {i : Nat} :
    n.face = file m b i ↔ n = file m b i := by
  cases n <;> simp [face]

theorem face_eq_device {n : Node} {d : Device} : n.face = device d ↔ n = device d := by
  cases n <;> simp [face]

theorem faceAt?_eq_none {root : Node} {p : Place} : root.faceAt? p = none ↔ root.at? p = none :=
  Option.map_eq_none_iff

theorem faceAt?_eq_directory {root : Node} {p : Place} {m : Nat} :
    root.faceAt? p = some (directory m []) ↔ ∃ es, root.at? p = some (directory m es) := by
  simp only [faceAt?, Option.map_eq_some_iff, face_eq_directory]
  constructor
  · rintro ⟨_, h, es, rfl⟩
    exact ⟨es, h⟩
  · rintro ⟨es, h⟩
    exact ⟨_, h, es, rfl⟩

theorem faceAt?_eq_file {root : Node} {p : Place} {m : Nat} {b : Bytes} {i : Nat} :
    root.faceAt? p = some (file m b i) ↔ root.at? p = some (file m b i) := by
  simp only [faceAt?, Option.map_eq_some_iff, face_eq_file, exists_eq_right]

theorem faceAt?_eq_device {root : Node} {p : Place} {d : Device} :
    root.faceAt? p = some (device d) ↔ root.at? p = some (device d) := by
  simp only [faceAt?, Option.map_eq_some_iff, face_eq_device, exists_eq_right]

theorem faceAt?_nil (root : Node) : root.faceAt? [] = some root.face := rfl

theorem faceAt?_cons (name : String) (rest : Place) (root : Node) :
    root.faceAt? (name :: rest) = (root.entries.lookup name).bind (faceAt? · rest) := by
  rw [faceAt?, at?, Option.map_bind]
  rfl

/-- What is seen below a place is what is seen below the node there. -/
theorem faceAt?_append {root n : Node} {p : Place} (h : root.at? p = some n) (q : Place) :
    root.faceAt? (p ++ q) = n.faceAt? q := by
  rw [faceAt?, at?_append, h]
  rfl

/-- Above everything stands a directory. -/
theorem exists_directory_of_faceAt? {p q : Place} {root c : Node} (hq : q ≠ [])
    (h : root.faceAt? (p ++ q) = some c) : ∃ m, root.faceAt? p = some (directory m []) := by
  obtain ⟨n, hn, -⟩ := Option.map_eq_some_iff.1 h
  obtain ⟨m, es, hp⟩ := exists_directory_of_at? hq hn
  exact ⟨m, faceAt?_eq_directory.2 ⟨es, hp⟩⟩

/-- Below what is no directory, and below nothing, is nothing. -/
theorem faceAt?_append_eq_none {p q : Place} {root : Node} (hq : q ≠ [])
    (h : ∀ m, root.faceAt? p ≠ some (directory m [])) : root.faceAt? (p ++ q) = none := by
  cases hc : root.faceAt? (p ++ q) with
  | none => rfl
  | some c =>
    obtain ⟨m, hm⟩ := exists_directory_of_faceAt? hq hc
    exact absurd hm (h m)

/-! ## A change at one place -/

theorem alter_cons {change : Option Node → Option Node} {name : String} {rest : Place} {m : Nat}
    {es : List (String × Node)} (hrest : rest ≠ []) :
    alter change (name :: rest) (directory m es) =
      directory m (Keyed.alter name (fun child ↦ child.map (alter change rest)) es) := by
  cases rest with
  | nil => exact absurd rfl hrest
  | cons next more => rw [alter]; exact fun h ↦ nomatch h

/-- **What a change at a place does to all places.**  The ones below it are those of the new node,
all others stay as they are. -/
theorem faceAt?_alter {root above : Node} {p : Place} (habove : root.at? p = some above)
    (hdir : above.isDirectory = true) (name : String) (change : Option Node → Option Node)
    (q : Place) :
    (alter change (p ++ [name]) root).faceAt? q =
      if p ++ [name] <+: q then
        (change (root.at? (p ++ [name]))).bind (faceAt? · (q.drop (p.length + 1)))
      else root.faceAt? q := by
  induction p generalizing root q with
  | nil =>
    obtain rfl : root = above := Option.some.inj habove
    cases root with
    | directory m es =>
      rw [List.nil_append, alter]
      cases q with
      | nil => rw [if_neg (by simp)]; rfl
      | cons next rest =>
        rw [faceAt?_cons, faceAt?_cons]
        simp only [entries, Keyed.lookup_alter, List.cons_prefix_cons, List.nil_prefix, and_true]
        by_cases hname : name = next
        · rw [if_pos hname.symm, if_pos hname]
          simp only [at?, entries, Option.bind_fun_some, List.length_nil, List.drop_succ_cons,
            List.drop_zero]
        · rw [if_neg (Ne.symm hname), if_neg hname]
    | file m b i => exact nomatch hdir
    | link target => exact nomatch hdir
    | device d => exact nomatch hdir
  | cons first rest ih =>
    rw [at?, Option.bind_eq_some_iff] at habove
    obtain ⟨child, hchild, hrest⟩ := habove
    obtain ⟨m, es, rfl⟩ := exists_directory_of_lookup hchild
    rw [List.cons_append, alter_cons (by simp)]
    cases q with
    | nil => rw [if_neg (by simp)]; rfl
    | cons next more =>
      rw [faceAt?_cons, faceAt?_cons]
      simp only [entries, Keyed.lookup_alter, List.cons_prefix_cons, at?] at hchild ⊢
      by_cases hnext : first = next
      · subst hnext
        rw [if_pos rfl, hchild]
        simp only [Option.map_some, Option.bind_some, true_and, ih hrest, List.length_cons,
          List.drop_succ_cons]
      · rw [if_neg (Ne.symm hnext), if_neg (fun h ↦ hnext h.1)]

/-- Where there was nothing, a node without entries is all that is new. -/
theorem faceAt?_put {root above node : Node} {p : Place} {name : String}
    (habove : root.at? p = some above) (hdir : above.isDirectory = true)
    (hvacant : root.at? (p ++ [name]) = none) (hleaf : node.entries = []) (q : Place) :
    (root.put (p ++ [name]) node).faceAt? q =
      if q = p ++ [name] then some node.face else root.faceAt? q := by
  rw [put, faceAt?_alter habove hdir, Option.bind_some]
  by_cases hq : p ++ [name] <+: q
  · obtain ⟨rest, rfl⟩ := hq
    rw [if_pos (List.prefix_append ..)]
    cases rest with
    | nil =>
      rw [List.append_nil, if_pos rfl, List.drop_of_length_le (by simp)]
      rfl
    | cons next more =>
      rw [if_neg (by simp), show (p ++ [name] ++ next :: more).drop (p.length + 1) = next :: more from
        List.drop_left' (by simp), faceAt?_cons, hleaf]
      refine (faceAt?_append_eq_none (by simp) fun m hm ↦ ?_).symm
      rw [faceAt?_eq_none.2 hvacant] at hm
      exact nomatch hm
  · have hne : q ≠ p ++ [name] := fun h ↦ hq (h ▸ List.prefix_rfl)
    rw [if_neg hq, if_neg hne]

/-- What was there is still there. -/
theorem faceAt?_put_of_eq_some {root above node c : Node} {p q : Place} {name : String}
    (habove : root.at? p = some above) (hdir : above.isDirectory = true)
    (hvacant : root.at? (p ++ [name]) = none) (hleaf : node.entries = [])
    (hc : root.faceAt? q = some c) : (root.put (p ++ [name]) node).faceAt? q = some c := by
  have hne : q ≠ p ++ [name] := by
    rintro rfl
    exact nomatch (faceAt?_eq_none.2 hvacant).symm.trans hc
  rw [faceAt?_put habove hdir hvacant hleaf, if_neg hne, hc]

/-! ## Other bytes for a file -/

/-- What is seen of a node at a place once a file has other bytes: those of all files at that place
or, if it is not zero, of that identity. -/
def rewritten (place : Place) (i : Nat) (b : Bytes) (q : Place) : Node → Node
  | file m c j => file m (if q = place ∨ (i ≠ 0 ∧ j = i) then b else c) j
  | other => other

/-- The file with other bytes. -/
def withBytes (b : Bytes) (n : Node) : Node := file n.mode b n.identity

theorem entriesAlterIdentity_eq_map (i : Nat) (change : Node → Node) (es : List (String × Node)) :
    entriesAlterIdentity i change es =
      es.map fun (name, node) ↦ (name, node.alterIdentity i change) := by
  induction es with
  | nil => rfl
  | cons entry rest ih => rw [entriesAlterIdentity, ih]; rfl

theorem lookup_entries_alterIdentity (i : Nat) (b : Bytes) (n : Node) (name : String) :
    (n.alterIdentity i (withBytes b)).entries.lookup name =
      (n.entries.lookup name).map (alterIdentity i (withBytes b)) := by
  cases n with
  | directory m es =>
    rw [alterIdentity, entries, entriesAlterIdentity_eq_map, Keyed.lookup_map]
    rfl
  | file m c j => rw [alterIdentity]; split <;> rfl
  | link target => rfl
  | device d => rfl

theorem at?_alterIdentity (i : Nat) (b : Bytes) (q : Place) (n : Node) :
    (n.alterIdentity i (withBytes b)).at? q = (n.at? q).map (alterIdentity i (withBytes b)) := by
  induction q generalizing n with
  | nil => rfl
  | cons name rest ih =>
    rw [at?, at?, lookup_entries_alterIdentity]
    cases n.entries.lookup name with
    | none => rfl
    | some child => exact ih child

theorem face_alterIdentity {i : Nat} {place : Place} (hi : i ≠ 0) (b : Bytes) (q : Place) (n : Node)
    (hplace : q = place → ∃ m c, n = file m c i) :
    (n.alterIdentity i (withBytes b)).face = rewritten place i b q n.face := by
  cases n with
  | directory m es => rfl
  | link target => rfl
  | device d => rfl
  | file m c j =>
    change face (if i = j then withBytes b (file m c j) else file m c j) =
      file m (if q = place ∨ (i ≠ 0 ∧ j = i) then b else c) j
    by_cases hj : i = j
    · rw [if_pos hj, if_pos (.inr ⟨hi, hj.symm⟩)]
      rfl
    · have hq : ¬ (q = place ∨ i ≠ 0 ∧ j = i) := by
        rintro (h | ⟨-, h⟩)
        · obtain ⟨m', c', heq⟩ := hplace h
          exact hj (file.inj heq).2.2.symm
        · exact hj h.symm
      rw [if_neg hj, if_neg hq]
      rfl

/-- **What other bytes for a file do to all places.** -/
theorem faceAt?_alterFile {root : Node} {p : Place} {name : String} {m i : Nat} {c : Bytes}
    (hfile : root.at? (p ++ [name]) = some (file m c i)) (b : Bytes) (q : Place) :
    (root.alterFile (p ++ [name]) (withBytes b)).faceAt? q =
      (root.faceAt? q).map (rewritten (p ++ [name]) i b q) := by
  obtain ⟨k, es, habove⟩ := exists_directory_of_at? (by simp) hfile
  have heq : root.alterFile (p ++ [name]) (withBytes b) =
      if i = 0 then alter (Option.map (withBytes b)) (p ++ [name]) root
      else root.alterIdentity i (withBytes b) := by
    rw [alterFile, hfile]
    rfl
  rw [heq]
  by_cases hi : i = 0
  · rw [if_pos hi, faceAt?_alter habove rfl, hfile, Option.map_some, Option.bind_some]
    by_cases hq : p ++ [name] <+: q
    · rw [if_pos hq]
      obtain ⟨rest, rfl⟩ := hq
      rw [faceAt?_append hfile, List.drop_left' (by simp)]
      cases rest with
      | nil => simp [faceAt?, at?, rewritten, face, withBytes, mode, identity]
      | cons next more => rfl
    · have hne : q ≠ p ++ [name] := fun h ↦ hq (h ▸ List.prefix_rfl)
      rw [if_neg hq]
      cases root.faceAt? q with
      | none => rfl
      | some n => cases n <;> simp [rewritten, hne, hi]
  · rw [if_neg hi, faceAt?, at?_alterIdentity, faceAt?, Option.map_map, Option.map_map]
    cases hn : root.at? q with
    | none => rfl
    | some n =>
      refine congrArg some (face_alterIdentity hi b q n fun h ↦ ?_)
      rw [h, hfile] at hn
      exact ⟨m, c, (Option.some.inj hn).symm⟩

/-! ## Trees that grow -/

/-- A node without the bytes of a file. -/
def outline : Node → Node
  | file m _ i => file m [] i
  | other => other

/-- A tree has grown into another: what stood in it stands there still, though files may have other
bytes. -/
def Extends (root root' : Node) : Prop :=
  ∀ p c, root.faceAt? p = some c → ∃ c', root'.faceAt? p = some c' ∧ c'.outline = c.outline

theorem Extends.refl (root : Node) : Extends root root := fun _ c hc ↦ ⟨c, hc, rfl⟩

theorem Extends.trans {root root' root'' : Node} (h : Extends root root')
    (h' : Extends root' root'') : Extends root root'' := by
  intro p c hc
  obtain ⟨c', hc', heq⟩ := h p c hc
  obtain ⟨c'', hc'', heq'⟩ := h' p c' hc'
  exact ⟨c'', hc'', heq'.trans heq⟩

theorem outline_rewritten (place : Place) (i : Nat) (b : Bytes) (q : Place) (n : Node) :
    (rewritten place i b q n).outline = n.outline := by
  cases n <;> rfl

/-- Nothing is seen of other bytes but at the place of the file, and at those of its other names. -/
theorem map_rewritten_eq_self {root : Node} {a place q : Place} {i : Nat} (hne : a ≠ place)
    (hother : ∀ m c, root.at? q = some (file m c i) → i = 0) (b : Bytes) :
    (root.faceAt? q).map (rewritten place i b a) = root.faceAt? q := by
  cases hc : root.faceAt? q with
  | none => rfl
  | some n =>
    cases n with
    | file m c j =>
      have hno : ¬ (a = place ∨ i ≠ 0 ∧ j = i) := by
        rintro (heq | ⟨hi, rfl⟩)
        · exact hne heq
        · exact hi (hother m c (faceAt?_eq_file.1 hc))
      rw [Option.map_some, rewritten, if_neg hno]
    | directory m es => rfl
    | link target => rfl
    | device d => rfl

theorem outline_eq_of_not_file {c c' : Node} (h : c'.outline = c.outline)
    (hc : c.isFile = false) : c' = c := by
  cases c <;> cases c' <;> simp_all [outline, isFile]

theorem Extends.directory {root root' : Node} (h : Extends root root') {p : Place} {m : Nat}
    (hp : root.faceAt? p = some (directory m [])) : root'.faceAt? p = some (directory m []) := by
  obtain ⟨c', hc', heq⟩ := h p _ hp
  rw [hc', outline_eq_of_not_file heq rfl]

theorem Extends.link {root root' : Node} (h : Extends root root') {p : Place} {target : String}
    (hp : root.at? p = some (.link target)) : root'.at? p = some (.link target) := by
  obtain ⟨c', hc', heq⟩ := h p (.link target) (by rw [faceAt?, hp]; rfl)
  rw [outline_eq_of_not_file heq rfl] at hc'
  obtain ⟨n, hn, hface⟩ := Option.map_eq_some_iff.1 hc'
  cases n with
  | link target' => rw [hn]; exact congrArg some hface
  | file m b i => exact nomatch hface
  | directory m es => exact nomatch hface
  | device d => exact nomatch hface

theorem extends_alterFile {root : Node} {p : Place} {name : String} {m i : Nat} {c : Bytes}
    (hfile : root.at? (p ++ [name]) = some (file m c i)) (b : Bytes) :
    root.Extends (root.alterFile (p ++ [name]) (withBytes b)) := by
  intro q d hd
  refine ⟨rewritten (p ++ [name]) i b q d, ?_, outline_rewritten ..⟩
  rw [faceAt?_alterFile hfile, hd]
  rfl

theorem isLink_of_isDirectory {n : Node} (h : n.isDirectory = true) : n.isLink = false := by
  cases n with
  | directory m es => rfl
  | file m b i => rfl
  | link target => exact nomatch h
  | device d => rfl

theorem isLink_face (n : Node) : n.face.isLink = n.isLink := by cases n <;> rfl

theorem isLink_outline (n : Node) : n.outline.isLink = n.isLink := by cases n <;> rfl

theorem identity_face (n : Node) : n.face.identity = n.identity := by cases n <;> rfl

theorem identity_outline (n : Node) : n.outline.identity = n.identity := by cases n <;> rfl

/-- What is no link is none in a tree that has grown. -/
theorem Extends.entry {root root' c : Node} (h : Extends root root') {p : Place}
    (hp : root.at? p = some c) : ∃ c', root'.at? p = some c' ∧ c'.isLink = c.isLink := by
  obtain ⟨f, hf, heq⟩ := h p c.face (by rw [faceAt?, hp]; rfl)
  obtain ⟨c', hc', rfl⟩ := Option.map_eq_some_iff.1 hf
  refine ⟨c', hc', ?_⟩
  rw [← isLink_face, ← isLink_outline, heq, isLink_outline, isLink_face]

end Node
end FirmwareLane
