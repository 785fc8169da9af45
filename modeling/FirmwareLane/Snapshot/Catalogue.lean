import FirmwareLane.Action
import FirmwareLane.Snapshot.Entry

/-!
# Catalogues

A catalogue is a list of files in the order in which they were added, and beside it the position of
every file under its path, so that a path is looked up without going through the list.

The two agree when the catalogue is `Consistent`: a path has a position exactly if the file there
has that path, so there is one position for every file, and no two files share a path.  Every
operation that changes a catalogue changes both, and each is shown to keep them in agreement:
adding a file (`insert`), putting it in the place of another (`upsert`), taking one out, which
moves all behind it (`remove`), and keeping those that satisfy a condition, which counts the
positions anew (`retain`).

A `Change` may be refused; what it did before stays done.
-/

set_option autoImplicit false
namespace FirmwareLane

/-- Whether a path has normal form and stays below the root. -/
def Path.IsAdmitted (path : String) : Prop :=
  Path.normalize path = path ∧ Path.isContained path = true

namespace Snapshot

/-- Why an entry is refused. -/
inductive Refusal where
  /-- The path, in normal form, is there already. -/
  | duplicatePath (path : String)
  /-- The path, in normal form, leads out of the root or names nothing. -/
  | escapesRoot (path : String)
  deriving DecidableEq, Repr

/-- The wording of a refusal. -/
def Refusal.message : Refusal → String
  | .duplicatePath path => "duplicate path in snapshot: " ++ path
  | .escapesRoot path => "path escapes snapshot root: " ++ Text.quoted path

/-- Files in the order in which they were added, and the position of each under its path. -/
structure Catalogue where
  entries : List Entry
  positions : List (String × Nat)
  deriving DecidableEq, Repr

namespace Catalogue

/-- The catalogue of no files. -/
def empty : Catalogue := ⟨[], []⟩

/-! ## Access -/

/-- The paths, in order. -/
def paths (c : Catalogue) : List String := c.entries.map Entry.path

/-- The entry at the position of a path. -/
def get? (c : Catalogue) (path : String) : Option Entry := do
  c.entries[← c.positions.lookup path]?

/-- Whether a path has a position. -/
def contains (c : Catalogue) (path : String) : Bool := (c.positions.lookup path).isSome

/-! ## Changes that may be refused -/

/-- A change of a catalogue that may be refused; what was done before the refusal stays. -/
abbrev Change (α : Type) := Action Catalogue Refusal α

/-- Adds an entry under the normal form of its path. -/
def insert (e : Entry) : Change Unit := do
  let e := e.normalized
  unless Path.isContained e.path do throw (.escapesRoot e.path)
  if (← get).contains e.path then throw (.duplicatePath e.path)
  modify fun c ↦ { c with positions := Keyed.insert e.path c.entries.length c.positions }
  modify fun c ↦ { c with entries := c.entries ++ [e] }

/-- Puts an entry in the place of the one under its path, which is given, or adds it. -/
def upsert (e : Entry) : Change (Option Entry) := do
  let e := e.normalized
  match (← get).positions.lookup e.path with
  | some i =>
    let old := (← get).entries[i]?
    modify fun c ↦ { c with entries := c.entries.set i e }
    return old
  | none =>
    insert e
    return none

/-- Adds entries one after another. -/
def insertAll : List Entry → Change Unit
  | [] => return
  | e :: rest => do
    insert e
    insertAll rest

/-- The catalogue of entries, added one after another to none. -/
def ofList (entries : List Entry) : Except Refusal Catalogue :=
  match Action.perform (insertAll entries) empty with
  | (.ok _, c) => .ok c
  | (.error r, _) => .error r

/-! ## Changes that take entries out -/

/-- The position of an entry after the one at another position is taken out. -/
def shifted (gone i : Nat) : Nat := if gone < i then i - 1 else i

/-- The entry under a path, and the catalogue without it. -/
def remove (path : String) (c : Catalogue) : Option Entry × Catalogue :=
  match c.positions.lookup path with
  | none => (none, c)
  | some i =>
    (c.entries[i]?,
      { entries := c.entries.eraseIdx i
        positions := (Keyed.erase path c.positions).map fun (name, j) ↦ (name, shifted i j) })

/-- The positions of entries, counted anew. -/
def counted (entries : List Entry) : List (String × Nat) :=
  Keyed.ofList (entries.zipIdx.map fun (e, i) ↦ (e.path, i))

/-- The catalogue of the entries that satisfy a condition. -/
def retain (keep : Entry → Bool) (c : Catalogue) : Catalogue :=
  ⟨c.entries.filter keep, counted (c.entries.filter keep)⟩

/-! ## Agreement of entries and positions -/

/-- **The invariant of a catalogue.**  A path has a position exactly if the file there has that path,
no path stands twice among the positions, and every path has normal form and stays below the
root. -/
structure Consistent (c : Catalogue) : Prop where
  /-- Every path has at most one position. -/
  sorted : Keyed.Sorted c.positions
  /-- The position of a path is where its file is. -/
  lookup_iff : ∀ path i, c.positions.lookup path = some i ↔ c.paths[i]? = some path
  /-- All paths lead to a place below the root. -/
  admitted : ∀ path ∈ c.paths, Path.IsAdmitted path

theorem consistent_empty : empty.Consistent where
  sorted := Keyed.sorted_nil
  lookup_iff := by simp [empty, paths]
  admitted := by simp [empty, paths]

variable {c : Catalogue}

/-- No two files of a consistent catalogue share a path. -/
theorem Consistent.nodup (h : c.Consistent) : c.paths.Nodup := by
  refine List.pairwise_iff_getElem.2 fun i j hi hj hij heq ↦ ?_
  have hposi := (h.lookup_iff c.paths[i] i).2 (List.getElem?_eq_getElem hi)
  have hposj := (h.lookup_iff c.paths[i] j).2 (heq ▸ List.getElem?_eq_getElem hj)
  have : i = j := Option.some.inj (hposi.symm.trans hposj)
  omega

theorem Consistent.contains_iff (h : c.Consistent) (path : String) :
    c.contains path = true ↔ path ∈ c.paths := by
  simp only [contains, Option.isSome_iff_exists, h.lookup_iff, List.mem_iff_getElem?]

/-- The positions follow from the entries. -/
theorem Consistent.ext {d : Catalogue} (hc : c.Consistent) (hd : d.Consistent)
    (h : c.entries = d.entries) : c = d := by
  obtain ⟨entries, positions⟩ := c
  obtain ⟨_, positions'⟩ := d
  subst h
  congr 1
  refine hc.sorted.ext hd.sorted fun path ↦ Option.ext fun i ↦ ?_
  exact (hc.lookup_iff path i).trans (hd.lookup_iff path i).symm

/-! ## Every operation keeps the agreement -/

open Action

theorem normalized_normalized (e : Entry) : e.normalized.normalized = e.normalized := by
  simp [Entry.normalized, Path.normalize_normalize]

/-- What an addition does: nothing if it is refused, and else one more file at the next position. -/
theorem perform_insert (e : Entry) (c : Catalogue) :
    (insert e).perform c =
      if Path.isContained e.normalized.path = true then
        if c.contains e.normalized.path = true then (.error (.duplicatePath e.normalized.path), c)
        else (.ok (), ⟨c.entries ++ [e.normalized],
          Keyed.insert e.normalized.path c.entries.length c.positions⟩)
      else (.error (.escapesRoot e.normalized.path), c) := by
  by_cases hc : Path.isContained e.normalized.path = true
  · by_cases hd : c.contains e.normalized.path = true
    · simp [insert, hc, hd, perform_bind]
    · simp [insert, hc, hd, perform_bind]
  · simp [insert, hc]

theorem perform_insert_normalized (e : Entry) (c : Catalogue) :
    (insert e.normalized).perform c = (insert e).perform c := by
  rw [perform_insert, perform_insert, normalized_normalized]

/-- What putting in an entry does: the entry under its path gives way, or it is added. -/
theorem perform_upsert (e : Entry) (c : Catalogue) :
    (upsert e).perform c =
      match c.positions.lookup e.normalized.path with
      | some i => (.ok c.entries[i]?, { c with entries := c.entries.set i e.normalized })
      | none => (((insert e).perform c).1.map fun _ ↦ none, ((insert e).perform c).2) := by
  rw [upsert, perform_bind, perform_get]
  cases hl : c.positions.lookup e.normalized.path with
  | some i =>
    simp only [hl]
    rw [perform_bind, perform_get]
    rfl
  | none =>
    simp only [hl]
    rw [perform_bind, perform_insert_normalized]
    rcases (insert e).perform c with ⟨_ | _, t⟩ <;> rfl

theorem consistent_append {e : Entry} (h : c.Consistent) (he : Path.IsAdmitted e.path)
    (hd : e.path ∉ c.paths) :
    Consistent ⟨c.entries ++ [e], Keyed.insert e.path c.entries.length c.positions⟩ where
  sorted := h.sorted.insert _ _
  lookup_iff path i := by
    have hnone : ∀ j, c.paths[j]? ≠ some e.path := fun j hj ↦ hd (List.mem_of_getElem? hj)
    have hlen : c.paths.length = c.entries.length := List.length_map ..
    simp only [paths, List.map_append, List.map_cons, List.map_nil]
    rw [Keyed.lookup_insert, List.getElem?_append]
    change _ ↔ (if i < c.paths.length then c.paths[i]? else _) = _
    grind [h.lookup_iff path i]
  admitted path hp := by
    simp only [paths, List.map_append, List.map_cons, List.map_nil, List.mem_append,
      List.mem_singleton] at hp
    rcases hp with hp | rfl
    · exact h.admitted path hp
    · exact he

/-- **An addition keeps the agreement, also if it is refused.** -/
theorem consistent_insert (h : c.Consistent) (e : Entry) : ((insert e).perform c).2.Consistent := by
  rw [perform_insert]
  split
  · next hc =>
    split
    · exact h
    · next hd =>
      exact consistent_append h ⟨Path.normalize_normalize e.path, hc⟩
        fun hm ↦ hd ((h.contains_iff _).2 hm)
  · exact h

/-- An entry in the place of the one that has its path keeps all paths. -/
theorem paths_set {e : Entry} {i : Nat} (h : c.Consistent)
    (hi : c.positions.lookup e.path = some i) :
    (c.entries.set i e).map Entry.path = c.paths := by
  obtain ⟨hlt, hget⟩ := List.getElem?_eq_some_iff.1 ((h.lookup_iff _ _).1 hi)
  rw [List.map_set, ← hget]
  exact List.set_getElem_self hlt

theorem consistent_set {e : Entry} {i : Nat} (h : c.Consistent)
    (hi : c.positions.lookup e.path = some i) :
    Consistent { c with entries := c.entries.set i e } where
  sorted := h.sorted
  lookup_iff path j := by
    rw [paths, paths_set h hi]
    exact h.lookup_iff path j
  admitted path hp := by
    rw [paths, paths_set h hi] at hp
    exact h.admitted path hp

/-- **Putting in an entry keeps the agreement.** -/
theorem consistent_upsert (h : c.Consistent) (e : Entry) : ((upsert e).perform c).2.Consistent := by
  rw [perform_upsert]
  split
  · next i hi => exact consistent_set h hi
  · exact consistent_insert h e

theorem consistent_insertAll (h : c.Consistent) (entries : List Entry) :
    ((insertAll entries).perform c).2.Consistent := by
  induction entries generalizing c with
  | nil => exact h
  | cons e rest ih =>
    have hi := consistent_insert h e
    rw [insertAll, perform_bind]
    rcases hp : (insert e).perform c with ⟨_ | _, t⟩
    · rwa [hp] at hi
    · rw [hp] at hi
      exact ih hi

theorem consistent_ofList {entries : List Entry} (h : ofList entries = .ok c) : c.Consistent := by
  have hi := consistent_insertAll consistent_empty entries
  rw [ofList] at h
  rcases hp : (insertAll entries).perform empty with ⟨_ | _, t⟩
  · simp [hp] at h
  · rw [hp] at hi h
    exact Except.ok.inj h ▸ hi

/-! ### Taking entries out -/

/-- **Taking out an entry keeps the agreement**: the positions behind it move up by one. -/
theorem consistent_remove (h : c.Consistent) (path : String) :
    (c.remove path).2.Consistent := by
  rw [remove]
  cases hi : c.positions.lookup path with
  | none => exact h
  | some i =>
    have hpath := (h.lookup_iff path i).1 hi
    have herased : (c.entries.eraseIdx i).map Entry.path = c.paths.eraseIdx i := by
      simp [paths, List.eraseIdx_eq_take_drop_succ, List.map_take, List.map_drop]
    refine ⟨(h.sorted.erase path).map _, fun other j ↦ ?_, fun other hother ↦ ?_⟩
    · rw [paths, herased, Keyed.lookup_map, Keyed.lookup_erase, List.getElem?_eraseIdx]
      by_cases hop : other = path
      · -- the path is gone: no other position has it
        subst hop
        have hone : ∀ k, c.paths[k]? = some other → k = i := fun k hk ↦
          Option.some.inj (((h.lookup_iff other k).2 hk).symm.trans hi)
        grind
      · have hnot : ∀ k, c.paths[k]? = some other → k ≠ i := fun k hk e ↦
          hop (Option.some.inj (hk.symm.trans (e ▸ hpath)))
        rw [if_neg hop, Option.map_eq_some_iff]
        simp only [h.lookup_iff other, shifted]
        grind
    · rw [paths, herased] at hother
      exact h.admitted other (List.mem_of_mem_eraseIdx hother)

/-- Counted anew, the position of a path is where its entry is. -/
theorem lookup_counted {entries : List Entry} (h : (entries.map Entry.path).Nodup) (path : String)
    (i : Nat) :
    (counted entries).lookup path = some i ↔ (entries.map Entry.path)[i]? = some path := by
  have hnames : (entries.zipIdx.map fun (e, i) ↦ (e.path, i)).map (·.1) =
      entries.map Entry.path := by
    rw [List.map_map]
    conv => rhs; rw [← List.zipIdx_map_fst 0 entries, List.map_map]
    rfl
  rw [counted, Keyed.lookup_ofList, Keyed.lookup_iff_of_nodup, List.mem_reverse, List.mem_map]
  · simp only [Prod.exists, List.mem_zipIdx_iff_getElem?, Prod.mk.injEq, List.getElem?_map,
      Option.map_eq_some_iff]
    grind
  · rw [List.map_reverse, hnames]
    exact List.pairwise_reverse.2 (List.Pairwise.imp Ne.symm h)

/-- **Keeping some of the entries keeps the agreement.** -/
theorem consistent_retain (h : c.Consistent) (keep : Entry → Bool) :
    (c.retain keep).Consistent := by
  have hsub : ((c.entries.filter keep).map Entry.path).Sublist c.paths :=
    List.filter_sublist.map Entry.path
  exact ⟨Keyed.sorted_ofList _, lookup_counted (h.nodup.sublist hsub),
    fun path hp ↦ h.admitted path (hsub.subset hp)⟩

end Catalogue
end Snapshot
end FirmwareLane
