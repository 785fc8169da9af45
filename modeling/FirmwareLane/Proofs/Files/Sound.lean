import FirmwareLane.Files.Basic
import FirmwareLane.Proofs.Files.Tree
import Mathlib.Data.List.Sort

/-!
# Trees as they can be

In the directories of a file system no two entries have one name, and there are texts that no entry
is named by: nothing, a text with a slash in it, and the two names that stand for a way.  `Sound`
says so of a tree.  Every change that the operations on files make keeps it.

A walk through a sound tree visits each node once, and in the order of their places, where the names
on the way are compared one by one (`sorted_visits`).
-/

set_option autoImplicit false
namespace FirmwareLane

open Text (Bytes)

/-- A text that can be a part of a path, and stands for no way. -/
structure IsPart (name : String) : Prop where
  nonempty : name ≠ ""
  slash : '/' ∉ name.toList
  notHere : name ≠ "."
  notAbove : name ≠ ".."

namespace IsPart

variable {name : String}

theorem toList_ne_nil (h : IsPart name) : name.toList ≠ [] :=
  fun heq ↦ h.nonempty (String.toList_eq_nil_iff.1 heq)

theorem toList_ne_here (h : IsPart name) : name.toList ≠ Path.here :=
  fun heq ↦ h.notHere (String.toList_injective heq)

theorem toList_ne_above (h : IsPart name) : name.toList ≠ Path.above :=
  fun heq ↦ h.notAbove (String.toList_injective heq)

end IsPart

/-- A text that can be the name of something in a directory. -/
structure IsName (name : String) : Prop where
  nonempty : name ≠ ""
  slash : '/' ∉ name.toList
  nul : '\x00' ∉ name.toList
  notHere : name ≠ "."
  notAbove : name ≠ ".."
  size : name.utf8ByteSize ≤ Files.greatestName

namespace IsName

variable {name : String}

instance (name : String) : Decidable (IsName name) :=
  decidable_of_iff (name ≠ "" ∧ '/' ∉ name.toList ∧ '\x00' ∉ name.toList ∧ name ≠ "." ∧
      name ≠ ".." ∧ name.utf8ByteSize ≤ Files.greatestName)
    ⟨fun ⟨a, b, c, d, e, f⟩ ↦ ⟨a, b, c, d, e, f⟩, fun ⟨a, b, c, d, e, f⟩ ↦ ⟨a, b, c, d, e, f⟩⟩

theorem isPart (h : IsName name) : IsPart name := ⟨h.nonempty, h.slash, h.notHere, h.notAbove⟩

end IsName

namespace Node

/-- The entries of every directory in a tree have different names, in order. -/
inductive Sound : Node → Prop
  | file (m : Nat) (b : Bytes) (i : Nat) : Sound (.file m b i)
  | link (target : String) : Sound (.link target)
  | device (d : Device) : Sound (.device d)
  | directory (m : Nat) {es : List (String × Node)} (sorted : Keyed.Sorted es)
      (named : ∀ entry ∈ es, IsName entry.1) (sound : ∀ entry ∈ es, Sound entry.2) :
      Sound (.directory m es)

theorem sound_emptyDirectory : emptyDirectory.Sound :=
  .directory _ Keyed.sorted_nil (fun _ h ↦ absurd h List.not_mem_nil)
    fun _ h ↦ absurd h List.not_mem_nil

/-! ## What soundness says of places -/

namespace Sound

theorem lookup {n c : Node} {name : String} (h : n.Sound) (hc : n.entries.lookup name = some c) :
    IsName name ∧ c.Sound := by
  cases h with
  | file m b i => exact nomatch hc
  | link target => exact nomatch hc
  | device d => exact nomatch hc
  | directory m sorted named sound =>
    have hmem := Keyed.mem_of_lookup hc
    exact ⟨named _ hmem, sound _ hmem⟩

/-- Everything in a sound tree is sound, and is reached along names. -/
theorem at? {n c : Node} {p : Place} (h : n.Sound) (hc : n.at? p = some c) :
    (∀ name ∈ p, IsName name) ∧ c.Sound := by
  induction p generalizing n with
  | nil =>
    obtain rfl : n = c := Option.some.inj hc
    exact ⟨fun _ hname ↦ absurd hname List.not_mem_nil, h⟩
  | cons first rest ih =>
    rw [Node.at?, Option.bind_eq_some_iff] at hc
    obtain ⟨child, hchild, hrest⟩ := hc
    obtain ⟨hfirst, hsound⟩ := h.lookup hchild
    obtain ⟨hnames, hc⟩ := ih hsound hrest
    refine ⟨fun name hname ↦ ?_, hc⟩
    rcases List.mem_cons.1 hname with rfl | hname
    · exact hfirst
    · exact hnames name hname

/-! ## Changes keep trees sound -/

theorem directory_alter {m : Nat} {es : List (String × Node)} {name : String}
    {change : Option Node → Option Node} (h : (Node.directory m es).Sound) (hname : IsName name)
    (hchange : ∀ c, change (es.lookup name) = some c → c.Sound) :
    (Node.directory m (Keyed.alter name change es)).Sound := by
  cases h with
  | directory m sorted named sound =>
    have hmem : ∀ entry ∈ Keyed.alter name change es, IsName entry.1 ∧ entry.2.Sound := by
      intro entry hentry
      have hlookup := (sorted.alter name change).lookup_iff.2 hentry
      rw [Keyed.lookup_alter] at hlookup
      split at hlookup
      · next heq => exact ⟨heq ▸ hname, hchange _ hlookup⟩
      · have hold := Keyed.mem_of_lookup hlookup
        exact ⟨named _ hold, sound _ hold⟩
    exact .directory m (sorted.alter name change) (fun entry he ↦ (hmem entry he).1)
      fun entry he ↦ (hmem entry he).2

theorem alter {n : Node} {place : Place} {change : Option Node → Option Node} (h : n.Sound)
    (hplace : ∀ name ∈ place, IsName name)
    (hchange : ∀ c, change (n.at? place) = some c → c.Sound) :
    (Node.alter change place n).Sound := by
  induction place generalizing n with
  | nil =>
    rw [Node.alter]
    cases hc : change (some n) with
    | none => exact h
    | some c => exact hchange c hc
  | cons first rest ih =>
    have hfirst := hplace first List.mem_cons_self
    cases n with
    | directory m es =>
      cases rest with
      | nil =>
        rw [Node.alter]
        refine h.directory_alter hfirst fun c hc ↦ hchange c ?_
        rw [Node.at?, show Node.at? [] = some from rfl, Option.bind_fun_some]
        exact hc
      | cons next more =>
        rw [alter_cons (by simp)]
        refine h.directory_alter hfirst fun c hc ↦ ?_
        obtain ⟨child, hchild, rfl⟩ := Option.map_eq_some_iff.1 hc
        have hrest := fun name hname ↦ hplace name (List.mem_cons_of_mem _ hname)
        refine ih (h.lookup hchild).2 hrest ?_
        intro c hc
        refine hchange c ?_
        rw [Node.at?, show (Node.directory m es).entries.lookup first = some child from hchild]
        exact hc
    | file m b i => cases rest <;> exact h
    | link target => cases rest <;> exact h
    | device d => cases rest <;> exact h

theorem put {n node : Node} {place : Place} (h : n.Sound) (hplace : ∀ name ∈ place, IsName name)
    (hnode : node.Sound) : (n.put place node).Sound :=
  h.alter hplace fun _ hc ↦ Option.some.inj hc ▸ hnode

/-- A change of every node in a directory leaves it sound if it leaves each of them so. -/
theorem directory_map (m : Nat) (change : Node → Node) {es : List (String × Node)}
    (sorted : Keyed.Sorted es) (named : ∀ entry ∈ es, IsName entry.1)
    (h : ∀ entry ∈ es, (change entry.2).Sound) :
    (Node.directory m (es.map fun (name, n) ↦ (name, change n))).Sound := by
  refine .directory m (sorted.map _) (fun entry he ↦ ?_) fun entry he ↦ ?_
  · obtain ⟨old, hold, rfl⟩ := List.mem_map.1 he
    exact named old hold
  · obtain ⟨old, hold, rfl⟩ := List.mem_map.1 he
    exact h old hold

theorem alterIdentity {n : Node} (h : n.Sound) (i : Nat) (b : Bytes) :
    (n.alterIdentity i (withBytes b)).Sound := by
  induction h with
  | file m c j =>
    rw [Node.alterIdentity]
    split
    · exact .file _ _ _
    · exact .file _ _ _
  | link target => exact .link target
  | device d => exact .device d
  | directory m sorted named sound ih =>
    rw [Node.alterIdentity, entriesAlterIdentity_eq_map]
    exact .directory_map m _ sorted named ih

theorem alterFile {n : Node} {place : Place} (h : n.Sound) (b : Bytes) :
    (n.alterFile place (withBytes b)).Sound := by
  rw [Node.alterFile]
  split
  · next c hc =>
    split
    · refine h.alter (h.at? hc).1 fun new hnew ↦ ?_
      obtain ⟨old, -, rfl⟩ := Option.map_eq_some_iff.1 hnew
      exact .file _ _ _
    · exact h.alterIdentity _ b
  · exact h

end Sound

/-! ## Other permissions for all files -/

theorem isDirectory_withModes (m : Nat) (n : Node) : (n.withModes m).isDirectory = n.isDirectory := by
  cases n <;> simp only [withModes, isDirectory]

theorem entriesWithModes_eq_map (m : Nat) (es : List (String × Node)) :
    entriesWithModes m es = es.map fun (name, n) ↦ (name, n.withModes m) := by
  induction es with
  | nil => rw [entriesWithModes]; rfl
  | cons entry rest ih => rw [entriesWithModes, ih]; rfl

theorem Sound.withModes {n : Node} (h : n.Sound) (m : Nat) : (n.withModes m).Sound := by
  induction h with
  | file k b i => rw [Node.withModes]; exact .file m b i
  | link target => simp only [Node.withModes]; exact .link target
  | device d => simp only [Node.withModes]; exact .device d
  | @directory k es sorted named sound ih =>
    rw [Node.withModes]
    split
    · rw [entriesWithModes_eq_map]
      exact .directory_map m _ sorted named ih
    · exact .directory m sorted named sound

/-! ## Soundness can be checked -/

mutual

/-- Whether the entries of every directory in a tree have different names, in order. -/
def isSound : Node → Bool
  | directory _ es => entriesSound es
  | _ => true

/-- Whether entries have different names, in order, and are sound. -/
def entriesSound : List (String × Node) → Bool
  | [] => true
  | (name, n) :: rest =>
    decide (IsName name) && rest.all (fun entry ↦ decide (name < entry.1)) && n.isSound &&
      entriesSound rest

end

theorem entriesSound_iff {es : List (String × Node)} :
    entriesSound es = true ↔
      Keyed.Sorted es ∧ ∀ entry ∈ es, IsName entry.1 ∧ entry.2.isSound = true := by
  induction es with
  | nil =>
    rw [entriesSound]
    exact iff_of_true rfl ⟨Keyed.sorted_nil, fun _ h ↦ absurd h List.not_mem_nil⟩
  | cons entry rest ih =>
    rw [entriesSound, Keyed.Sorted, List.pairwise_cons]
    simp only [Bool.and_eq_true, decide_eq_true_eq, List.all_eq_true, ih, List.forall_mem_cons]
    constructor
    · rintro ⟨⟨⟨hname, hless⟩, hsound⟩, hsorted, hrest⟩
      exact ⟨⟨hless, hsorted⟩, ⟨hname, hsound⟩, hrest⟩
    · rintro ⟨⟨hless, hsorted⟩, ⟨hname, hsound⟩, hrest⟩
      exact ⟨⟨⟨hname, hless⟩, hsound⟩, hsorted, hrest⟩

mutual

theorem sound_of_isSound : (n : Node) → n.isSound = true → n.Sound
  | file m b i, _ => .file m b i
  | link target, _ => .link target
  | device d, _ => .device d
  | directory m es, h => by
    have hes := entriesSound_iff.1 (by rwa [isSound] at h)
    exact .directory m hes.1 (fun entry he ↦ (hes.2 entry he).1)
      (sound_of_entriesSound es fun entry he ↦ (hes.2 entry he).2)

theorem sound_of_entriesSound : (es : List (String × Node)) →
    (∀ entry ∈ es, entry.2.isSound = true) → ∀ entry ∈ es, entry.2.Sound
  | [], _ => fun _ h ↦ absurd h List.not_mem_nil
  | (name, n) :: rest, h => by
    intro entry he
    rcases List.mem_cons.1 he with rfl | he
    · exact sound_of_isSound n (h _ List.mem_cons_self)
    · exact sound_of_entriesSound rest (fun e hr ↦ h e (List.mem_cons_of_mem _ hr)) entry he

end

theorem isSound_iff {n : Node} : n.isSound = true ↔ n.Sound := by
  refine ⟨sound_of_isSound n, fun h ↦ ?_⟩
  induction h with
  | file m b i => rw [isSound]; exact fun _ _ ↦ Node.noConfusion
  | link target => rw [isSound]; exact fun _ _ ↦ Node.noConfusion
  | device d => rw [isSound]; exact fun _ _ ↦ Node.noConfusion
  | directory m sorted named sound ih =>
    rw [isSound]
    exact entriesSound_iff.2 ⟨sorted, fun entry he ↦ ⟨named entry he, ih entry he⟩⟩

instance (n : Node) : Decidable n.Sound := decidable_of_iff _ isSound_iff

/-! ## The walk through a tree -/

/-- A node and the nodes below it, in the order of a walk. -/
def visits (n : Node) : List (Place × Node) := ([], n) :: n.descendants

theorem entryDescendants_eq_flatMap (es : List (String × Node)) :
    entryDescendants es =
      es.flatMap fun entry ↦ entry.2.visits.map fun (place, n) ↦ (entry.1 :: place, n) := by
  induction es with
  | nil => rw [entryDescendants]; rfl
  | cons entry rest ih => rw [entryDescendants, ih]; rfl

theorem visits_directory (m : Nat) (es : List (String × Node)) :
    (directory m es).visits = ([], directory m es) ::
      es.flatMap fun entry ↦ entry.2.visits.map fun (place, n) ↦ (entry.1 :: place, n) := by
  rw [visits, descendants, entryDescendants_eq_flatMap]

theorem visits_of_not_directory {n : Node} (h : n.isDirectory = false) : n.visits = [([], n)] := by
  cases n with
  | directory m es => exact nomatch h
  | file m b i => rw [visits, descendants]; exact fun _ _ ↦ Node.noConfusion
  | link target => rw [visits, descendants]; exact fun _ _ ↦ Node.noConfusion
  | device d => rw [visits, descendants]; exact fun _ _ ↦ Node.noConfusion

theorem mem_visits_of_not_directory {n : Node} (hn : n.isDirectory = false) {p : Place} {c : Node} :
    (p, c) ∈ n.visits ↔ n.at? p = some c := by
  rw [visits_of_not_directory hn, List.mem_singleton, Prod.mk.injEq]
  cases p with
  | nil => exact ⟨fun h ↦ congrArg some h.2.symm, fun h ↦ ⟨rfl, (Option.some.inj h).symm⟩⟩
  | cons name rest =>
    refine ⟨fun h ↦ absurd h.1 (List.cons_ne_nil name rest), fun h ↦ ?_⟩
    rw [at?, Option.bind_eq_some_iff] at h
    obtain ⟨child, hchild, -⟩ := h
    obtain ⟨m, es, rfl⟩ := exists_directory_of_lookup hchild
    cases hn

/-- **A walk comes to a node at the place where it is.** -/
theorem mem_visits {n : Node} (h : n.Sound) {p : Place} {c : Node} :
    (p, c) ∈ n.visits ↔ n.at? p = some c := by
  induction h generalizing p with
  | file m b i => exact mem_visits_of_not_directory rfl
  | link target => exact mem_visits_of_not_directory rfl
  | device d => exact mem_visits_of_not_directory rfl
  | @directory m es sorted named sound ih =>
    rw [visits_directory, List.mem_cons, Prod.mk.injEq]
    cases p with
    | nil =>
      simp only [true_and, List.mem_flatMap, List.mem_map, Prod.mk.injEq, reduceCtorEq, false_and,
        and_false, exists_false, or_false, at?, Option.some.injEq]
      exact eq_comm
    | cons name rest =>
      simp only [reduceCtorEq, false_and, false_or, List.mem_flatMap, List.mem_map, Prod.mk.injEq,
        List.cons.injEq, Prod.exists, at?, Option.bind_eq_some_iff, entries, sorted.lookup_iff]
      constructor
      · rintro ⟨key, child, hmem, q, d, hvisit, ⟨rfl, rfl⟩, rfl⟩
        exact ⟨child, hmem, (ih _ hmem).1 hvisit⟩
      · rintro ⟨child, hmem, hrest⟩
        exact ⟨name, child, hmem, rest, c, (ih _ hmem).2 hrest, ⟨rfl, rfl⟩, rfl⟩

/-- **A walk comes to places in their order.** -/
theorem sorted_visits {n : Node} (h : n.Sound) : n.visits.Pairwise fun a b ↦ a.1 < b.1 := by
  induction h with
  | file m b i => exact visits_of_not_directory (n := .file m b i) rfl ▸ List.pairwise_singleton ..
  | link target => exact visits_of_not_directory (n := .link target) rfl ▸ List.pairwise_singleton ..
  | device d => exact visits_of_not_directory (n := .device d) rfl ▸ List.pairwise_singleton ..
  | @directory m es sorted named sound ih =>
    rw [visits_directory, List.pairwise_cons, List.pairwise_flatMap]
    refine ⟨fun visit hvisit ↦ ?_, fun entry hentry ↦ ?_, List.Pairwise.imp ?_ sorted⟩
    · simp only [List.mem_flatMap, List.mem_map] at hvisit
      obtain ⟨_, -, _, -, rfl⟩ := hvisit
      exact List.nil_lt_cons _ _
    · refine List.pairwise_map.2 ((ih entry hentry).imp fun hlt ↦ ?_)
      exact List.cons_lt_cons_iff.2 (.inr ⟨rfl, hlt⟩)
    · intro first second hlt a ha b hb
      obtain ⟨_, -, rfl⟩ := List.mem_map.1 ha
      obtain ⟨_, -, rfl⟩ := List.mem_map.1 hb
      exact List.cons_lt_cons_iff.2 (.inl hlt)

end Node
end FirmwareLane
