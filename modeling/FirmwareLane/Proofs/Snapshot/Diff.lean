import FirmwareLane.Proofs.Snapshot.Building
import FirmwareLane.Snapshot.Diff

/-!
# What a later snapshot has that an earlier one has not

A file of the later snapshot counts as changed unless the earlier one has the same bytes under the
same path (`IsChangedFrom`), and the changed files keep their order (`entries_modified`).

Two functions tell what changed: one keeps the changed entries, the other lists their paths and says
of each whether it is new.  Both ask the earlier snapshot for what stands under a path, and what it
answers depends on which entries it has and not on their order (`get?_congr`).  So both report the
same files (`changes_eq`), and `diff_exact` says which ones, whatever the order of either snapshot.
-/

set_option autoImplicit false
namespace FirmwareLane

/-- None of some entries has the path and the bytes of this one. -/
def Entry.IsChangedFrom (old : List Entry) (e : Entry) : Prop :=
  ∀ d ∈ old, d.path = e.path → d.bytes ≠ e.bytes

instance (old : List Entry) (e : Entry) : Decidable (e.IsChangedFrom old) :=
  inferInstanceAs (Decidable (∀ d ∈ old, d.path = e.path → d.bytes ≠ e.bytes))

namespace Snapshot

variable {before after s t : Snapshot} {e : Entry}

/-! ## What stands under a path -/

/-- What stands under a path is the entry with that path. -/
theorem get?_eq_some {path : String} : s.get? path = some e ↔ e ∈ s.entries ∧ e.path = path := by
  have hposition := s.consistent.lookup_iff
  rw [get?, Catalogue.get?]
  constructor
  · intro h
    obtain ⟨i, hi, he⟩ := Option.bind_eq_some_iff.1 h
    have hpath := (hposition path i).1 hi
    rw [Catalogue.paths, List.getElem?_map, he] at hpath
    exact ⟨List.mem_of_getElem? he, Option.some.inj hpath⟩
  · rintro ⟨hmem, rfl⟩
    obtain ⟨i, hi⟩ := List.mem_iff_getElem?.1 hmem
    refine Option.bind_eq_some_iff.2 ⟨i, (hposition e.path i).2 ?_, hi⟩
    exact (List.getElem?_map ..).trans (congrArg (Option.map Entry.path) hi)

theorem get?_eq_none {path : String} : s.get? path = none ↔ path ∉ s.paths := by
  change _ ↔ path ∉ s.entries.map Entry.path
  rw [Option.eq_none_iff_forall_ne_some, List.mem_map]
  simp only [Ne, get?_eq_some, not_exists]

/-- Snapshots with the same entries have the same under every path. -/
theorem get?_congr (h : ∀ e, e ∈ s.entries ↔ e ∈ t.entries) (path : String) :
    s.get? path = t.get? path :=
  Option.ext fun e ↦ by rw [get?_eq_some, get?_eq_some, h]

theorem change?_congr (h : ∀ e, e ∈ s.entries ↔ e ∈ t.entries) : s.change? = t.change? := by
  funext e
  rw [change?, change?, get?_congr h]

/-! ## Changed entries -/

theorem isSome_change? : (s.change? e).isSome = true ↔ e.IsChangedFrom s.entries := by
  rw [change?]
  cases hget : s.get? e.path with
  | none =>
    refine iff_of_true rfl fun d hd hpath ↦ ?_
    exact nomatch hget.symm.trans (get?_eq_some.2 ⟨hd, hpath⟩)
  | some old =>
    obtain ⟨hold, hpath⟩ := get?_eq_some.1 hget
    constructor
    · intro h d hd hdpath hbytes
      obtain rfl := Option.some.inj (hget.symm.trans (get?_eq_some.2 ⟨hd, hdpath⟩))
      simp only [hbytes, if_true] at h
      exact nomatch h
    · intro h
      simp only [if_neg (h old hold hpath)]
      rfl

/-- **The changed entries of the later snapshot, in its order.** -/
theorem entries_modified (before after : Snapshot) :
    (before.modified after).entries = after.entries.filter (·.IsChangedFrom before.entries) :=
  List.filter_congr fun _ _ ↦ Bool.eq_iff_iff.2 (isSome_change?.trans decide_eq_true_iff.symm)

/-- An entry changed if its path is new, or the entry that had it has other bytes. -/
theorem isChangedFrom_iff :
    e.IsChangedFrom s.entries ↔
      e.path ∉ s.paths ∨ ∃ d ∈ s.entries, d.path = e.path ∧ d.bytes ≠ e.bytes := by
  constructor
  · intro h
    cases hget : s.get? e.path with
    | none => exact .inl (get?_eq_none.1 hget)
    | some d =>
      obtain ⟨hd, hpath⟩ := get?_eq_some.1 hget
      exact .inr ⟨d, hd, hpath, h d hd hpath⟩
  · rintro (hnew | ⟨d, hd, hpath, hbytes⟩) old hold hsame
    · exact absurd (hsame ▸ List.mem_map_of_mem hold) hnew
    · have hget := get?_eq_some.2 ⟨hd, hpath⟩
      obtain rfl := Option.some.inj (hget.symm.trans (get?_eq_some.2 ⟨hold, hsame⟩))
      exact hbytes

/-- A changed entry was added if its path is new, and modified if it is not. -/
theorem change?_eq_some {c : Change} :
    s.change? e = some c ↔
      e.IsChangedFrom s.entries ∧ c = if e.path ∈ s.paths then .modified else .added := by
  rw [← isSome_change?, change?]
  cases hget : s.get? e.path with
  | none => simp [get?_eq_none.1 hget, eq_comm]
  | some old =>
    have hthere : e.path ∈ s.paths := by
      by_contra hnew
      cases hget.symm.trans (get?_eq_none.2 hnew)
    by_cases hbytes : old.bytes = e.bytes
    · simp [hbytes]
    · simp [hbytes, hthere, eq_comm]

/-- **Both functions report the same files in the same order.** -/
theorem changes_eq (before after : Snapshot) :
    before.changes after = (before.modified after).entries.map fun e ↦
      (e.path, if e.path ∈ before.paths then .modified else .added) := by
  rw [entries_modified, changes]
  induction after.entries with
  | nil => rfl
  | cons e rest ih =>
    by_cases hchanged : e.IsChangedFrom before.entries
    · have hchange := change?_eq_some.2 ⟨hchanged, rfl⟩
      rw [List.filter_cons_of_pos (by simpa using hchanged), List.map_cons, ← ih]
      simp only [List.filterMap_cons, hchange, Option.map_some]
    · have hsame : before.change? e = none := by
        rw [← Option.not_isSome_iff_eq_none, isSome_change?]
        exact hchanged
      rw [List.filter_cons_of_neg (by simpa using hchanged), ← ih]
      simp only [List.filterMap_cons, hsame, Option.map_none]

/-- Against itself nothing changed. -/
theorem modified_self (s : Snapshot) : s.modified s = .empty := by
  refine ext ((entries_modified s s).trans (List.filter_eq_nil_iff.2 fun e he ↦ ?_))
  rw [decide_eq_true_eq]
  exact fun hchanged ↦ hchanged e he rfl rfl

/-- **What is reported as changed is exact, and does not depend on any order.**  Of two snapshots,
the changed entries are those of the later one, in its order, whose paths the earlier one does not
have, or has with other bytes; they make up a snapshot.  The list of changes has their paths in
that order, each as added if the earlier snapshot does not have it and else as modified, so that
nothing is reported but what the later one has.  The entries of the earlier one in another order
give the same changes, and those of the later one the same in another order.  Against itself a
snapshot did not change. -/
theorem diff_exact (before after : Snapshot) :
    (before.modified after).entries = after.entries.filter (fun e ↦
      e.path ∉ before.paths ∨ ∃ d ∈ before.entries, d.path = e.path ∧ d.bytes ≠ e.bytes) ∧
    ofList (before.modified after).entries = .ok (before.modified after) ∧
    before.changes after = (before.modified after).entries.map (fun e ↦
      (e.path, if e.path ∈ before.paths then .modified else .added)) ∧
    (∀ path c, (path, c) ∈ before.changes after → path ∈ after.paths) ∧
    (∀ entries : List Entry, entries.Perm before.entries →
      ∃ s, ofList entries = .ok s ∧ s.entries = entries ∧
        s.modified after = before.modified after ∧ s.changes after = before.changes after) ∧
    (∀ entries : List Entry, entries.Perm after.entries →
      ∃ s, ofList entries = .ok s ∧ s.entries = entries ∧
        (before.modified s).entries.Perm (before.modified after).entries ∧
        (before.changes s).Perm (before.changes after)) ∧
    after.modified after = .empty ∧ after.changes after = [] := by
  refine ⟨?_, ofList_entries _, changes_eq before after, fun path c hmem ↦ ?_,
    fun entries hperm ↦ ?_, fun entries hperm ↦ ?_, modified_self after, ?_⟩
  · rw [entries_modified]
    exact List.filter_congr fun e _ ↦ decide_eq_decide.2 isChangedFrom_iff
  · obtain ⟨e, he, hchange⟩ := List.mem_filterMap.1 hmem
    obtain ⟨_, -, hpair⟩ := Option.map_eq_some_iff.1 hchange
    exact (Prod.mk.inj hpair).1 ▸ List.mem_map_of_mem he
  · obtain ⟨s, hs, hentries⟩ := exists_ofList_of_perm hperm
    have hsame : s.change? = before.change? :=
      change?_congr fun e ↦ hentries ▸ hperm.mem_iff
    refine ⟨s, hs, hentries, ?_, ?_⟩
    · rw [modified, modified, hsame]
    · rw [changes, changes, hsame]
  · obtain ⟨s, hs, hentries⟩ := exists_ofList_of_perm hperm
    refine ⟨s, hs, hentries, ?_, ?_⟩
    · rw [entries_modified, entries_modified, hentries]
      exact hperm.filter _
    · rw [changes, changes, hentries]
      exact hperm.filterMap _
  · rw [changes_eq, modified_self]
    rfl

/-- A file whose bytes become text, one that is modified, one that goes and one that comes. -/
theorem diff_exact_of_recoded :
    ∃ before after reversed : Snapshot,
      before.entries = [⟨"a.c", .text "x"⟩, ⟨"b.bin", .binary [1]⟩, ⟨"gone", .text ""⟩] ∧
      after.entries = [⟨"new", .text ""⟩, ⟨"b.bin", .binary [2]⟩, ⟨"a.c", .binary [120]⟩] ∧
      reversed.entries = before.entries.reverse ∧
      (reversed.modified after).entries = [⟨"new", .text ""⟩, ⟨"b.bin", .binary [2]⟩] ∧
      reversed.changes after = [("new", .added), ("b.bin", .modified)] := by
  have hbefore : (ofList [⟨"a.c", .text "x"⟩, ⟨"b.bin", .binary [1]⟩, ⟨"gone", .text ""⟩]).map
      entries = .ok [⟨"a.c", .text "x"⟩, ⟨"b.bin", .binary [1]⟩, ⟨"gone", .text ""⟩] := by
    decide +kernel
  have hafter : (ofList [⟨"new", .text ""⟩, ⟨"b.bin", .binary [2]⟩, ⟨"a.c", .binary [120]⟩]).map
      entries = .ok [⟨"new", .text ""⟩, ⟨"b.bin", .binary [2]⟩, ⟨"a.c", .binary [120]⟩] := by
    decide +kernel
  obtain ⟨before, -, hb⟩ := Outcome.map_eq_ok.1 hbefore
  obtain ⟨after, -, ha⟩ := Outcome.map_eq_ok.1 hafter
  obtain ⟨hentries, -, hchanges, -, hperm, -, -, -⟩ := diff_exact before after
  obtain ⟨reversed, -, hreversed, hmodified, hlisted⟩ := hperm _ (List.reverse_perm before.entries)
  have hpaths : before.paths = ["a.c", "b.bin", "gone"] := congrArg (List.map Entry.path) hb
  rw [ha, hb, hpaths] at hentries
  have htwo : (before.modified after).entries = [⟨"new", .text ""⟩, ⟨"b.bin", .binary [2]⟩] :=
    hentries.trans (by decide +kernel)
  rw [htwo, hpaths] at hchanges
  exact ⟨before, after, reversed, hb, ha, hreversed, hmodified ▸ htwo,
    hlisted.trans (hchanges.trans (by decide))⟩

end Snapshot
end FirmwareLane
