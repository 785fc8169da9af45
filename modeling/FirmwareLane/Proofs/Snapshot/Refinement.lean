import FirmwareLane.Snapshot.Catalogue
import FirmwareLane.Proofs.Paths
import Mathlib.Data.List.Perm.Basic
import Mathlib.Data.List.Nodup

/-!
# A catalogue is a list of entries

A catalogue keeps a position for every path beside its entries, and each change has to keep the two
in step.  Whoever uses it should not have to know: every answer is the one that the plain list of
the entries, gone through from the front, would give.

Here that is a refinement between two implementations of one interface.  `catalogues` is the
catalogue as it is; `plainLists` has nothing but the entries, in the order in which they were added,
and does everything by going through them.  A session is a list of commands on any number of
collections at hand, made from nothing, from a list of entries or as a copy of one that is there.

## What is here

* `Implementation`, `step` and `run`: the interface, and sessions over any implementation of it.
* `Simulates`: what one implementation has to do for another, one operation at a time, and
  `Simulates.run`, which carries it over to sessions of any length.
* `simulates_plainLists`: the catalogue does what the list does, from one lemma for each operation.
* `catalogue_refines_list` puts this together with the invariant of catalogues.
-/

set_option autoImplicit false
namespace FirmwareLane
namespace Snapshot

open Action

/-! ## Sessions -/

/-- The operations on a collection of entries. -/
structure Implementation (σ : Type) where
  new : σ
  collect : List Entry → Except Refusal σ
  insert : Entry → σ → Except Refusal Unit × σ
  upsert : Entry → σ → Except Refusal (Option Entry) × σ
  remove : String → σ → Option Entry × σ
  retain : (Entry → Bool) → σ → σ
  get? : String → σ → Option Entry
  contains : String → σ → Bool
  size : σ → Nat
  paths : σ → List String
  entries : σ → List Entry

/-- A use of one operation.  A collection at hand is given by its number.  What is kept is given by
a condition on the entry alone: entries have different paths, so a condition that also remembers
what it was asked before comes down to one that does not. -/
inductive Command where
  | new
  | collect (entries : List Entry)
  | copy (source : Nat)
  | insert (target : Nat) (e : Entry)
  | upsert (target : Nat) (e : Entry)
  | remove (target : Nat) (path : String)
  | retain (target : Nat) (keep : Entry → Bool)
  | get (target : Nat) (path : String)
  | contains (target : Nat) (path : String)
  | size (target : Nat)
  | paths (target : Nat)
  | entries (target : Nat)

/-- What an operation answers. -/
inductive Answer where
  | done
  | refused (r : Refusal)
  | entry (e : Option Entry)
  | truth (b : Bool)
  | count (n : Nat)
  | paths (ps : List String)
  | entries (es : List Entry)
  /-- There is no collection of this number. -/
  | missing
  deriving DecidableEq, Repr

/-- The answer to a change that may be refused. -/
def Answer.ofChange {α : Type} (give : α → Answer) : Except Refusal α → Answer
  | .ok a => give a
  | .error r => .refused r

variable {σ τ : Type}

/-- A use of an operation on the collection of a number. -/
def onTarget (hand : List σ) (target : Nat) (use : σ → Answer × σ) : Answer × List σ :=
  match hand[target]? with
  | none => (.missing, hand)
  | some s => ((use s).1, hand.set target (use s).2)

/-- The answer to a command and the collections at hand after it; new ones are put at the end. -/
def step (I : Implementation σ) (hand : List σ) : Command → Answer × List σ
  | .new => (.done, hand ++ [I.new])
  | .collect es =>
    match I.collect es with
    | .ok s => (.done, hand ++ [s])
    | .error r => (.refused r, hand)
  | .copy source =>
    match hand[source]? with
    | none => (.missing, hand)
    | some s => (.done, hand ++ [s])
  | .insert target e =>
    onTarget hand target fun s ↦ (.ofChange (fun _ ↦ .done) (I.insert e s).1, (I.insert e s).2)
  | .upsert target e =>
    onTarget hand target fun s ↦ (.ofChange .entry (I.upsert e s).1, (I.upsert e s).2)
  | .remove target path =>
    onTarget hand target fun s ↦ (.entry (I.remove path s).1, (I.remove path s).2)
  | .retain target keep => onTarget hand target fun s ↦ (.done, I.retain keep s)
  | .get target path => onTarget hand target fun s ↦ (.entry (I.get? path s), s)
  | .contains target path => onTarget hand target fun s ↦ (.truth (I.contains path s), s)
  | .size target => onTarget hand target fun s ↦ (.count (I.size s), s)
  | .paths target => onTarget hand target fun s ↦ (.paths (I.paths s), s)
  | .entries target => onTarget hand target fun s ↦ (.entries (I.entries s), s)

/-- The answers to commands, one after another, and the collections at hand in the end. -/
def run (I : Implementation σ) (hand : List σ) : List Command → List Answer × List σ
  | [] => ([], hand)
  | command :: rest =>
    ((step I hand command).1 :: (run I (step I hand command).2 rest).1,
      (run I (step I hand command).2 rest).2)

/-! ## Simulation -/

/-- Operations that give the same, and leave states that are related. -/
structure SameUpTo {α : Type} (R : σ → τ → Prop) (x : α × σ) (y : α × τ) : Prop where
  answer : x.1 = y.1
  state : R x.2 y.2

/-- Outcomes of making a collection that are refused alike, or are related. -/
inductive SameOutcome (R : σ → τ → Prop) : Except Refusal σ → Except Refusal τ → Prop
  | ok {s : σ} {t : τ} (h : R s t) : SameOutcome R (.ok s) (.ok t)
  | error (r : Refusal) : SameOutcome R (.error r) (.error r)

/-- From related states every operation gives the same, and leaves related states. -/
structure Simulates (R : σ → τ → Prop) (I : Implementation σ) (J : Implementation τ) : Prop where
  new : R I.new J.new
  collect : ∀ es, SameOutcome R (I.collect es) (J.collect es)
  insert : ∀ {s t} (e : Entry), R s t → SameUpTo R (I.insert e s) (J.insert e t)
  upsert : ∀ {s t} (e : Entry), R s t → SameUpTo R (I.upsert e s) (J.upsert e t)
  remove : ∀ {s t} (path : String), R s t → SameUpTo R (I.remove path s) (J.remove path t)
  retain : ∀ {s t} (keep : Entry → Bool), R s t → R (I.retain keep s) (J.retain keep t)
  get? : ∀ {s t} (path : String), R s t → I.get? path s = J.get? path t
  contains : ∀ {s t} (path : String), R s t → I.contains path s = J.contains path t
  size : ∀ {s t}, R s t → I.size s = J.size t
  paths : ∀ {s t}, R s t → I.paths s = J.paths t
  entries : ∀ {s t}, R s t → I.entries s = J.entries t

namespace Simulates

variable {R : σ → τ → Prop} {I : Implementation σ} {J : Implementation τ}

theorem rel_getElem? {hand : List σ} {hand' : List τ} (hhand : List.Forall₂ R hand hand')
    (i : Nat) : Option.Rel R hand[i]? hand'[i]? := by
  induction hhand generalizing i with
  | nil => exact .none
  | cons hR _ ih =>
    cases i with
    | zero => exact .some hR
    | succ i => exact ih i

theorem forall₂_set {hand : List σ} {hand' : List τ} (hhand : List.Forall₂ R hand hand') (i : Nat)
    {s : σ} {t : τ} (hR : R s t) : List.Forall₂ R (hand.set i s) (hand'.set i t) := by
  induction hhand generalizing i with
  | nil => exact .nil
  | cons hhead htail ih =>
    cases i with
    | zero => exact .cons hR htail
    | succ i => exact .cons hhead (ih i)

theorem forall₂_concat {hand : List σ} {hand' : List τ} (hhand : List.Forall₂ R hand hand')
    {s : σ} {t : τ} (hR : R s t) : List.Forall₂ R (hand ++ [s]) (hand' ++ [t]) :=
  List.rel_append hhand (.cons hR .nil)

theorem onTarget {hand : List σ} {hand' : List τ} (hhand : List.Forall₂ R hand hand')
    (target : Nat) {use : σ → Answer × σ} {use' : τ → Answer × τ}
    (huse : ∀ {s t}, R s t → SameUpTo R (use s) (use' t)) :
    SameUpTo (List.Forall₂ R) (Snapshot.onTarget hand target use)
      (Snapshot.onTarget hand' target use') := by
  have hrel := rel_getElem? hhand target
  rw [Snapshot.onTarget, Snapshot.onTarget]
  cases hs : hand[target]? <;> cases ht : hand'[target]? <;> rw [hs, ht] at hrel
  · exact ⟨rfl, hhand⟩
  · exact nomatch hrel
  · exact nomatch hrel
  · cases hrel with
    | some hR => exact ⟨(huse hR).answer, forall₂_set hhand target (huse hR).state⟩

/-- **One command gives the same answer on both sides.** -/
theorem step (h : Simulates R I J) {hand : List σ} {hand' : List τ}
    (hhand : List.Forall₂ R hand hand') (command : Command) :
    SameUpTo (List.Forall₂ R) (Snapshot.step I hand command) (Snapshot.step J hand' command) := by
  cases command with
  | new => exact ⟨rfl, forall₂_concat hhand h.new⟩
  | collect es =>
    have hc := h.collect es
    rw [Snapshot.step, Snapshot.step]
    generalize I.collect es = x at hc
    generalize J.collect es = y at hc
    cases hc with
    | ok hR => exact ⟨rfl, forall₂_concat hhand hR⟩
    | error r => exact ⟨rfl, hhand⟩
  | copy source =>
    have hrel := rel_getElem? hhand source
    simp only [Snapshot.step]
    cases hs : hand[source]? <;> cases ht : hand'[source]? <;> rw [hs, ht] at hrel
    · exact ⟨rfl, hhand⟩
    · exact nomatch hrel
    · exact nomatch hrel
    · cases hrel with
      | some hR => exact ⟨rfl, forall₂_concat hhand hR⟩
  | insert target e =>
    exact onTarget hhand target fun hR ↦
      ⟨congrArg (Answer.ofChange _) (h.insert e hR).answer, (h.insert e hR).state⟩
  | upsert target e =>
    exact onTarget hhand target fun hR ↦
      ⟨congrArg (Answer.ofChange _) (h.upsert e hR).answer, (h.upsert e hR).state⟩
  | remove target path =>
    exact onTarget hhand target fun hR ↦
      ⟨congrArg Answer.entry (h.remove path hR).answer, (h.remove path hR).state⟩
  | retain target keep => exact onTarget hhand target fun hR ↦ ⟨rfl, h.retain keep hR⟩
  | get target path => exact onTarget hhand target fun hR ↦ ⟨congrArg _ (h.get? path hR), hR⟩
  | contains target path =>
    exact onTarget hhand target fun hR ↦ ⟨congrArg _ (h.contains path hR), hR⟩
  | size target => exact onTarget hhand target fun hR ↦ ⟨congrArg _ (h.size hR), hR⟩
  | paths target => exact onTarget hhand target fun hR ↦ ⟨congrArg _ (h.paths hR), hR⟩
  | entries target => exact onTarget hhand target fun hR ↦ ⟨congrArg _ (h.entries hR), hR⟩

/-- **A session gives the same answers on both sides.** -/
theorem run (h : Simulates R I J) {hand : List σ} {hand' : List τ}
    (hhand : List.Forall₂ R hand hand') (commands : List Command) :
    SameUpTo (List.Forall₂ R) (Snapshot.run I hand commands) (Snapshot.run J hand' commands) := by
  induction commands generalizing hand hand' with
  | nil => exact ⟨rfl, hhand⟩
  | cons command rest ih =>
    have hstep := h.step hhand command
    exact ⟨congrArg₂ _ hstep.answer (ih hstep.state).answer, (ih hstep.state).state⟩

end Simulates

/-! ## The plain list -/

namespace PlainList

/-- The list with one more entry at the end, if its path may stand in it. -/
def insert (e : Entry) (l : List Entry) : Except Refusal Unit × List Entry :=
  if Path.isContained e.normalized.path then
    if l.any fun x ↦ x.path == e.normalized.path then
      (.error (.duplicatePath e.normalized.path), l)
    else (.ok (), l ++ [e.normalized])
  else (.error (.escapesRoot e.normalized.path), l)

/-- The list with an entry where the one of its path was, or at the end. -/
def upsert (e : Entry) (l : List Entry) : Except Refusal (Option Entry) × List Entry :=
  if l.any fun x ↦ x.path == e.normalized.path then
    (.ok (l.find? fun x ↦ x.path == e.normalized.path),
      l.map fun x ↦ if x.path = e.normalized.path then e.normalized else x)
  else ((insert e l).1.map fun _ ↦ none, (insert e l).2)

/-- The list of entries that are added one after another. -/
def insertAll : List Entry → List Entry → Except Refusal (List Entry)
  | [], l => .ok l
  | e :: rest, l =>
    match insert e l with
    | (.ok _, l) => insertAll rest l
    | (.error r, _) => .error r

end PlainList

/-- Entries in the order in which they were added, and nothing else. -/
def plainLists : Implementation (List Entry) where
  new := []
  collect es := PlainList.insertAll es []
  insert := PlainList.insert
  upsert := PlainList.upsert
  remove path l := (l.find? fun x ↦ x.path == path, l.filter fun x ↦ x.path != path)
  retain keep l := l.filter keep
  get? path l := l.find? fun x ↦ x.path == path
  contains path l := l.any fun x ↦ x.path == path
  size l := l.length
  paths l := l.map Entry.path
  entries l := l

/-- Entries with their positions. -/
def catalogues : Implementation Catalogue where
  new := .empty
  collect := Catalogue.ofList
  insert e := (Catalogue.insert e).perform
  upsert e := (Catalogue.upsert e).perform
  remove := Catalogue.remove
  retain := Catalogue.retain
  get? path c := c.get? path
  contains path c := c.contains path
  size c := c.entries.length
  paths := Catalogue.paths
  entries := Catalogue.entries

/-! ## Positions find what a search finds -/

/-- A catalogue that stands for a list: consistent, with the same entries. -/
structure Mirrors (c : Catalogue) (l : List Entry) : Prop where
  consistent : c.Consistent
  entries_eq : c.entries = l

section ByPath

variable {l : List Entry}

/-- The entry of a path at some place is the one that a search for the path finds. -/
theorem find?_of_getElem? (hnodup : (l.map Entry.path).Nodup) {i : Nat} {e : Entry}
    (hi : l[i]? = some e) : (l.find? fun x ↦ x.path == e.path) = some e := by
  induction l generalizing i with
  | nil => simp at hi
  | cons x rest ih =>
    rw [List.map_cons, List.nodup_cons] at hnodup
    cases i with
    | zero =>
      obtain rfl : x = e := Option.some.inj hi
      simp
    | succ i =>
      have he : e ∈ rest := List.mem_of_getElem? hi
      have hne : x.path ≠ e.path := fun h ↦ hnodup.1 (h ▸ List.mem_map_of_mem he)
      rw [List.find?_cons_of_neg (by simpa using hne)]
      exact ih hnodup.2 hi

/-- Taking out the entry at a place takes out the entries of its path. -/
theorem eraseIdx_eq_filter (hnodup : (l.map Entry.path).Nodup) {i : Nat} {e : Entry}
    (hi : l[i]? = some e) : l.eraseIdx i = l.filter fun x ↦ x.path != e.path := by
  induction l generalizing i with
  | nil => simp at hi
  | cons x rest ih =>
    rw [List.map_cons, List.nodup_cons] at hnodup
    cases i with
    | zero =>
      obtain rfl : x = e := Option.some.inj hi
      rw [List.eraseIdx_cons_zero, List.filter_cons_of_neg (by simp), eq_comm, List.filter_eq_self]
      intro y hy
      have hne : y.path ≠ x.path := fun h ↦ hnodup.1 (h ▸ List.mem_map_of_mem hy)
      simpa using hne
    | succ i =>
      have he : e ∈ rest := List.mem_of_getElem? hi
      have hne : x.path ≠ e.path := fun h ↦ hnodup.1 (h ▸ List.mem_map_of_mem he)
      rw [List.eraseIdx_cons_succ, List.filter_cons_of_pos (by simpa using hne),
        ih hnodup.2 hi]

/-- Replacing the entry at a place replaces the entries of its path. -/
theorem set_eq_map (hnodup : (l.map Entry.path).Nodup) {i : Nat} {e old : Entry}
    (hi : l[i]? = some old) (hpath : old.path = e.path) :
    l.set i e = l.map fun x ↦ if x.path = e.path then e else x := by
  induction l generalizing i with
  | nil => simp at hi
  | cons x rest ih =>
    rw [List.map_cons, List.nodup_cons] at hnodup
    cases i with
    | zero =>
      obtain rfl : x = old := Option.some.inj hi
      have hrest : (rest.map fun y ↦ if y.path = e.path then e else y) = rest := by
        refine (List.map_congr_left fun y hy ↦ if_neg fun h ↦ ?_).trans (List.map_id _)
        exact hnodup.1 (hpath ▸ h ▸ List.mem_map_of_mem hy)
      rw [List.set_cons_zero, List.map_cons, if_pos hpath, hrest]
    | succ i =>
      have hold : old ∈ rest := List.mem_of_getElem? hi
      have hne : x.path ≠ e.path := fun h ↦
        hnodup.1 (h.trans hpath.symm ▸ List.mem_map_of_mem hold)
      rw [List.set_cons_succ, List.map_cons, if_neg hne, ih hnodup.2 hi]

end ByPath

/-- The condition under which a path is found by going through a list. -/
theorem any_eq_true {l : List Entry} {path : String} :
    (l.any fun x ↦ x.path == path) = true ↔ path ∈ l.map Entry.path := by
  simp [List.any_eq_true, List.mem_map]

theorem any_eq_false {l : List Entry} {path : String} (h : path ∉ l.map Entry.path) :
    (l.any fun x ↦ x.path == path) = false := by
  rw [Bool.eq_false_iff, Ne, any_eq_true]
  exact h

theorem find?_eq_none {l : List Entry} {path : String} (h : path ∉ l.map Entry.path) :
    (l.find? fun x ↦ x.path == path) = none := by
  rw [List.find?_eq_none]
  exact fun x hx hpath ↦ h (beq_iff_eq.1 hpath ▸ List.mem_map_of_mem hx)

namespace Mirrors

variable {c : Catalogue} {l : List Entry}

theorem nodup (h : Mirrors c l) : (l.map Entry.path).Nodup := h.entries_eq ▸ h.consistent.nodup

/-- A path has a position, at which its entry is, or it is nowhere. -/
theorem position (h : Mirrors c l) (path : String) :
    (∃ i e, c.positions.lookup path = some i ∧ c.entries[i]? = some e ∧ l[i]? = some e ∧
      e.path = path ∧ path ∈ l.map Entry.path) ∨
    c.positions.lookup path = none ∧ path ∉ l.map Entry.path := by
  obtain ⟨hc, rfl⟩ := h
  cases hi : c.positions.lookup path with
  | none =>
    refine .inr ⟨rfl, fun hmem ↦ ?_⟩
    have hsome := (hc.contains_iff path).2 hmem
    rw [Catalogue.contains, hi] at hsome
    cases hsome
  | some i =>
    have hpath := (hc.lookup_iff path i).1 hi
    rw [Catalogue.paths, List.getElem?_map, Option.map_eq_some_iff] at hpath
    obtain ⟨e, he, rfl⟩ := hpath
    exact .inl ⟨i, e, rfl, he, he, rfl, List.mem_map_of_mem (List.mem_of_getElem? he)⟩

theorem get? (h : Mirrors c l) (path : String) :
    c.get? path = l.find? fun x ↦ x.path == path := by
  rw [Catalogue.get?]
  rcases h.position path with ⟨i, e, hi, he, hl, rfl, -⟩ | ⟨hi, hnot⟩
  · rw [hi, find?_of_getElem? h.nodup hl]
    exact he
  · rw [hi, find?_eq_none hnot]
    rfl

theorem contains (h : Mirrors c l) (path : String) :
    c.contains path = l.any fun x ↦ x.path == path := by
  rw [Bool.eq_iff_iff, h.consistent.contains_iff, any_eq_true, ← h.entries_eq]
  rfl

theorem insert (h : Mirrors c l) (e : Entry) :
    SameUpTo Mirrors ((Catalogue.insert e).perform c) (PlainList.insert e l) := by
  have hconsistent := Catalogue.consistent_insert h.consistent e
  rw [Catalogue.perform_insert] at hconsistent ⊢
  rw [PlainList.insert, ← h.contains]
  by_cases hcontained : Path.isContained e.normalized.path = true
  · rw [if_pos hcontained] at hconsistent ⊢
    rw [if_pos hcontained]
    by_cases hthere : c.contains e.normalized.path = true
    · rw [if_pos hthere, if_pos hthere]
      exact ⟨rfl, h⟩
    · rw [if_neg hthere] at hconsistent ⊢
      rw [if_neg hthere]
      exact ⟨rfl, hconsistent, congrArg (· ++ [e.normalized]) h.entries_eq⟩
  · rw [if_neg hcontained, if_neg hcontained]
    exact ⟨rfl, h⟩

theorem upsert (h : Mirrors c l) (e : Entry) :
    SameUpTo Mirrors ((Catalogue.upsert e).perform c) (PlainList.upsert e l) := by
  have hconsistent := Catalogue.consistent_upsert h.consistent e
  rw [Catalogue.perform_upsert] at hconsistent ⊢
  rw [PlainList.upsert]
  rcases h.position e.normalized.path with ⟨i, old, hi, hc, hl, hpath, hmem⟩ | ⟨hi, hnot⟩
  · rw [if_pos (any_eq_true.2 hmem)]
    simp only [hi] at hconsistent ⊢
    refine ⟨?_, hconsistent, ?_⟩
    · rw [hc, ← hpath, find?_of_getElem? h.nodup hl]
    · rw [h.entries_eq, set_eq_map h.nodup hl hpath]
  · rw [if_neg (by simp [any_eq_false hnot])]
    simp only [hi]
    exact ⟨congrArg (Except.map _) (h.insert e).answer, (h.insert e).state⟩

theorem remove (h : Mirrors c l) (path : String) :
    SameUpTo Mirrors (c.remove path) (plainLists.remove path l) := by
  have hconsistent := Catalogue.consistent_remove h.consistent path
  rw [Catalogue.remove] at hconsistent ⊢
  rcases h.position path with ⟨i, e, hi, hc, hl, rfl, -⟩ | ⟨hi, hnot⟩
  · simp only [hi] at hconsistent ⊢
    refine ⟨?_, hconsistent, ?_⟩
    · rw [hc]
      exact (find?_of_getElem? h.nodup hl).symm
    · rw [h.entries_eq]
      exact eraseIdx_eq_filter h.nodup hl
  · simp only [hi]
    refine ⟨(find?_eq_none hnot).symm, h.consistent, ?_⟩
    rw [h.entries_eq, eq_comm]
    refine List.filter_eq_self.2 fun x hx ↦ ?_
    have hne : x.path ≠ path := fun heq ↦ hnot (heq ▸ List.mem_map_of_mem hx)
    simpa using hne

theorem insertAll (h : Mirrors c l) (es : List Entry) :
    SameOutcome Mirrors
      (((Catalogue.insertAll es).perform c).1.map fun _ ↦ ((Catalogue.insertAll es).perform c).2)
      (PlainList.insertAll es l) := by
  induction es generalizing c l with
  | nil => exact .ok h
  | cons e rest ih =>
    have hsame := h.insert e
    rw [Catalogue.insertAll, perform_bind, PlainList.insertAll]
    generalize (Catalogue.insert e).perform c = x at hsame
    generalize PlainList.insert e l = y at hsame
    obtain ⟨r | u, d⟩ := x <;> obtain ⟨r' | u', m⟩ := y
    · obtain rfl := Except.error.inj hsame.answer
      exact .error r
    · cases hsame.answer
    · cases hsame.answer
    · exact ih hsame.state

end Mirrors

/-- **The catalogue does what the plain list does.** -/
theorem simulates_plainLists : Simulates Mirrors catalogues plainLists where
  new := ⟨Catalogue.consistent_empty, rfl⟩
  collect es := by
    have h := Mirrors.insertAll ⟨Catalogue.consistent_empty, rfl⟩ es
    change SameOutcome Mirrors (Catalogue.ofList es) (PlainList.insertAll es [])
    rw [Catalogue.ofList]
    generalize (Catalogue.insertAll es).perform Catalogue.empty = x at h
    obtain ⟨r | u, d⟩ := x
    · exact h
    · exact h
  insert e h := h.insert e
  upsert e h := h.upsert e
  remove path h := h.remove path
  retain keep h := ⟨Catalogue.consistent_retain h.consistent keep, congrArg (List.filter keep) h.entries_eq⟩
  get? path h := h.get? path
  contains path h := h.contains path
  size h := congrArg List.length h.entries_eq
  paths h := congrArg (List.map Entry.path) h.entries_eq
  entries h := h.entries_eq

/-! ## The invariant, spelled out -/

/-- There is one position for every entry. -/
theorem length_positions {c : Catalogue} (h : c.Consistent) :
    c.positions.length = c.entries.length := by
  have hperm : (c.positions.map (·.1)).Perm c.paths := by
    rw [List.perm_ext_iff_of_nodup h.sorted.nodup h.nodup]
    intro path
    rw [← h.contains_iff, Catalogue.contains, Option.isSome_iff_exists, List.mem_map]
    constructor
    · rintro ⟨⟨name, i⟩, hmem, rfl⟩
      exact ⟨i, h.sorted.lookup_iff.2 hmem⟩
    · rintro ⟨i, hi⟩
      exact ⟨(path, i), Keyed.mem_of_lookup hi, rfl⟩
  rw [← List.length_map, hperm.length_eq, Catalogue.paths, List.length_map]

/-- A change that is refused leaves the catalogue as it was. -/
theorem perform_insert_of_refused {e : Entry} {c : Catalogue} {r : Refusal}
    (h : ((Catalogue.insert e).perform c).1 = .error r) :
    ((Catalogue.insert e).perform c).2 = c := by
  rw [Catalogue.perform_insert] at h ⊢
  split at h
  · split at h
    · next hc hd => rw [if_pos hc, if_pos hd]
    · exact nomatch h
  · next hc => rw [if_neg hc]

theorem perform_upsert_of_refused {e : Entry} {c : Catalogue} {r : Refusal}
    (h : ((Catalogue.upsert e).perform c).1 = .error r) :
    ((Catalogue.upsert e).perform c).2 = c := by
  rw [Catalogue.perform_upsert] at h ⊢
  split at h
  · exact nomatch h
  · next hnone =>
    dsimp only
    cases hi : ((Catalogue.insert e).perform c).1 with
    | error r' => exact perform_insert_of_refused hi
    | ok u =>
      rw [hi] at h
      exact nomatch h

/-- **A catalogue is a list of entries.**  In every session, whatever the commands, every answer is
the one that the plain lists of entries give, and the entries are theirs.  Every catalogue at hand
has one position for each entry, and the position of a path is where its entry is; no two entries
share a path, and every path has normal form, names something, is not absolute and has no part that
leads upwards.  A change that is refused changes nothing. -/
theorem catalogue_refines_list :
    (∀ commands,
      (run catalogues [] commands).1 = (run plainLists [] commands).1 ∧
      (run catalogues [] commands).2.map Catalogue.entries = (run plainLists [] commands).2 ∧
      ∀ c ∈ (run catalogues [] commands).2,
        c.positions.length = c.entries.length ∧ (c.positions.map (·.1)).Nodup ∧
        (∀ path i, c.positions.lookup path = some i ↔
          ∃ e, c.entries[i]? = some e ∧ e.path = path) ∧
        (c.entries.map Entry.path).Nodup ∧
        ∀ e ∈ c.entries, Path.normalize e.path = e.path ∧ e.path ≠ "" ∧
          e.path.toList.head? ≠ some '/' ∧
          (∀ letter rest, e.path.toList = letter :: ':' :: rest → letter.isAlpha = false) ∧
          Path.above ∉ Text.splitOn '/' e.path.toList) ∧
    (∀ e c r, ((Catalogue.insert e).perform c).1 = .error r →
      ((Catalogue.insert e).perform c).2 = c) ∧
    ∀ e c r, ((Catalogue.upsert e).perform c).1 = .error r →
      ((Catalogue.upsert e).perform c).2 = c := by
  refine ⟨fun commands ↦ ?_, fun e c r ↦ perform_insert_of_refused,
    fun e c r ↦ perform_upsert_of_refused⟩
  have hrun := simulates_plainLists.run (List.Forall₂.nil) commands
  refine ⟨hrun.answer, ?_, fun c hc ↦ ?_⟩
  · rw [← List.forall₂_eq_eq_eq, List.forall₂_map_left_iff]
    exact hrun.state.imp fun _ _ hmirrors ↦ hmirrors.entries_eq
  · obtain ⟨number, hnumber⟩ := List.getElem?_of_mem hc
    have hrel := Simulates.rel_getElem? hrun.state number
    rw [hnumber] at hrel
    obtain ⟨l, hmirrors⟩ : ∃ l, Mirrors c l := by
      generalize (run plainLists [] commands).2[number]? = found at hrel
      cases hrel with
      | some hmirrors => exact ⟨_, hmirrors⟩
    have h := hmirrors.consistent
    refine ⟨length_positions h, h.sorted.nodup, fun path i ↦ ?_, h.nodup, fun e he ↦ ?_⟩
    · rw [h.lookup_iff, Catalogue.paths, List.getElem?_map, Option.map_eq_some_iff]
    · obtain ⟨hnormal, hcontained⟩ := h.admitted e.path (List.mem_map_of_mem he)
      exact ⟨hnormal, Path.isContained_iff.1 hcontained⟩

theorem catalogue_refines_list_of_session :
    let commands : List Command :=
      [.collect [⟨"./Makefile", .text "all:"⟩, ⟨"src\\main.c", .text "int x;"⟩],
        .remove 0 "Makefile", .get 0 "src/main.c"]
    let catalogue : Catalogue := ⟨[⟨"src/main.c", .text "int x;"⟩], [("src/main.c", 0)]⟩
    (run catalogues [] commands).1 = (run plainLists [] commands).1 ∧
      (run catalogues [] commands).2 = [catalogue] ∧
      catalogue.positions.length = catalogue.entries.length ∧
      ((Catalogue.insert ⟨"../evil.sh", .text ""⟩).perform catalogue).2 = catalogue ∧
      ((Catalogue.upsert ⟨"../evil.sh", .text ""⟩).perform catalogue).2 = catalogue := by
  intro commands catalogue
  have hhand : (run catalogues [] commands).2 = [catalogue] := by decide +kernel
  obtain ⟨hanswers, -, hall⟩ := catalogue_refines_list.1 commands
  refine ⟨hanswers, hhand, (hall catalogue (by rw [hhand]; exact List.mem_singleton_self _)).1, ?_, ?_⟩
  · exact catalogue_refines_list.2.1 _ _ (.escapesRoot "../evil.sh") (by decide +kernel)
  · exact catalogue_refines_list.2.2 _ _ (.escapesRoot "../evil.sh") (by decide +kernel)

end Snapshot
end FirmwareLane
