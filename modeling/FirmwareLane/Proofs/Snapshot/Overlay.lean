import FirmwareLane.Client.Draft
import FirmwareLane.Proofs.Snapshot.Diff
import FirmwareLane.Proofs.Snapshot.Refinement

/-!
# Entries laid over a snapshot

Entries are laid over a snapshot one after another, each in the place of the one under its path or
at the end.  What that does to a snapshot is told by two equations, one for the paths in their order
and one for what stands under a path; the first entries of new paths decide about the order, and the
last entry of a path about what stands there (`paths_overlay`, `get?_overlay`).

The entries that changed between two snapshots are a patch: laid over the earlier one they give a
snapshot from which the later one did not change (`patch_sufficient`).
-/

set_option autoImplicit false
namespace FirmwareLane
namespace Snapshot

open Draft (overlay)

variable {s t m : Snapshot} {e : Entry} {es : List Entry} {old : Option Entry}

/-! ## One entry -/

theorem isContained_of_upsert (h : s.upsert e = .ok (t, old)) :
    Path.isContained e.normalized.path = true := by
  by_contra hescapes
  cases h.symm.trans (upsert_of_not_isContained hescapes s)

/-- The entry takes the place of the one under its path, or is the last one. -/
theorem entries_of_upsert (h : s.upsert e = .ok (t, old)) :
    t.entries = if e.normalized.path ∈ s.paths then
      s.entries.map fun d ↦ if d.path = e.normalized.path then e.normalized else d
    else s.entries ++ [e.normalized] := by
  have hcontained := isContained_of_upsert h
  obtain ⟨given, -, hafter⟩ := Outcome.map_eq_ok.1 h
  obtain ⟨rfl, -⟩ := Prod.mk.inj hafter
  -- the list of the entries is changed in the same way
  refine (Mirrors.upsert ⟨s.consistent, rfl⟩ e).state.entries_eq.trans ?_
  rw [PlainList.upsert]
  by_cases hthere : e.normalized.path ∈ s.paths
  · rw [if_pos (any_eq_true.2 hthere), if_pos hthere]
    rfl
  · have hnew := any_eq_false hthere
    rw [PlainList.insert, if_pos hcontained, hnew, if_neg Bool.false_ne_true, if_neg hthere]
    rfl

/-- A path that is there already keeps its place, and another one is the last. -/
theorem paths_of_upsert (h : s.upsert e = .ok (t, old)) :
    t.paths = if e.normalized.path ∈ s.paths then s.paths
      else s.paths ++ [e.normalized.path] := by
  change t.entries.map Entry.path = _
  rw [entries_of_upsert h]
  split
  · rw [List.map_map]
    refine List.map_congr_left fun d _ ↦ ?_
    dsimp only [Function.comp]
    split
    · next hpath => exact hpath.symm
    · rfl
  · exact List.map_append

/-- The entry stands under its path, and what stands under others stays. -/
theorem get?_of_upsert (h : s.upsert e = .ok (t, old)) (path : String) :
    t.get? path = if e.normalized.path = path then some e.normalized else s.get? path := by
  have hentries := entries_of_upsert h
  split
  · next hpath =>
    refine get?_eq_some.2 ⟨?_, hpath⟩
    rw [hentries]
    split
    · next hthere =>
      obtain ⟨d, hd, hdpath⟩ := List.mem_map.1 hthere
      exact List.mem_map.2 ⟨d, hd, if_pos hdpath⟩
    · exact List.mem_append_right _ (List.mem_singleton_self _)
  · next hpath =>
    refine Option.ext fun d ↦ ?_
    rw [get?_eq_some, get?_eq_some, hentries]
    refine and_congr_left fun hd ↦ ?_
    have hother : d.path ≠ e.normalized.path := fun heq ↦ hpath (heq.symm.trans hd)
    have hdifferent : d ≠ e.normalized := fun heq ↦ hother (congrArg Entry.path heq)
    split
    · rw [List.mem_map]
      constructor
      · rintro ⟨x, hx, hxd⟩
        split at hxd
        · exact absurd hxd.symm hdifferent
        · exact hxd ▸ hx
      · exact fun hmem ↦ ⟨d, hmem, if_neg hother⟩
    · rw [List.mem_append, List.mem_singleton, or_iff_left hdifferent]

/-! ## All of them -/

theorem overlay_cons {rest : List Entry} :
    overlay s (e :: rest) = .ok t ↔
      ∃ between old, s.upsert e = .ok (between, old) ∧ overlay between rest = .ok t := by
  rw [overlay]
  constructor
  · intro h
    split at h
    · next between old hupsert => exact ⟨between, old, hupsert, h⟩
    · exact nomatch h
  · rintro ⟨between, old, hupsert, hrest⟩
    rw [hupsert]
    exact hrest

/-- **Entries can be laid over a snapshot exactly if they stay below the root.** -/
theorem exists_overlay_iff :
    (∃ t, overlay s es = .ok t) ↔ ∀ e ∈ es, Path.isContained e.normalized.path = true := by
  induction es generalizing s with
  | nil => exact iff_of_true ⟨s, rfl⟩ nofun
  | cons e rest ih =>
    rw [List.forall_mem_cons]
    simp only [overlay_cons]
    constructor
    · rintro ⟨t, between, old, hupsert, hrest⟩
      exact ⟨isContained_of_upsert hupsert, ih.1 ⟨t, hrest⟩⟩
    · rintro ⟨hcontained, hall⟩
      obtain ⟨between, hupsert⟩ := exists_upsert hcontained s
      obtain ⟨t, hrest⟩ := ih.2 hall
      exact ⟨t, between, _, hupsert, hrest⟩

/-- **The order after laying entries over a snapshot**: its own paths, then the new ones in the
order in which they first came. -/
theorem paths_overlay (h : overlay s es = .ok t) :
    t.paths = s.paths ++
      ((es.map fun e ↦ e.normalized.path).filter (· ∉ s.paths)).eraseDups := by
  induction es generalizing s with
  | nil =>
    obtain rfl := Except.ok.inj h
    exact (List.append_nil _).symm
  | cons e rest ih =>
    obtain ⟨between, old, hupsert, hrest⟩ := overlay_cons.1 h
    rw [ih hrest, paths_of_upsert hupsert, List.map_cons]
    by_cases hthere : e.normalized.path ∈ s.paths
    · rw [if_pos hthere, List.filter_cons_of_neg (by simpa using hthere)]
    · rw [if_neg hthere, List.filter_cons_of_pos (by simpa using hthere), List.eraseDups_cons,
        List.filter_filter, List.append_assoc, List.singleton_append]
      congr 3
      refine List.filter_congr fun path _ ↦ ?_
      rw [Bool.eq_iff_iff]
      simp [and_comm]

/-- **What stands under a path after laying entries over a snapshot**: the last of them with this
path, or what stood there before. -/
theorem get?_overlay (h : overlay s es = .ok t) (path : String) :
    t.get? path =
      ((es.map Entry.normalized).reverse.find? (·.path == path)).or (s.get? path) := by
  induction es generalizing s with
  | nil =>
    obtain rfl := Except.ok.inj h
    rfl
  | cons e rest ih =>
    obtain ⟨between, old, hupsert, hrest⟩ := overlay_cons.1 h
    rw [ih hrest, get?_of_upsert hupsert, List.map_cons, List.reverse_cons, List.find?_append,
      Option.or_assoc]
    congr 1
    by_cases hpath : e.normalized.path = path
    · rw [if_pos hpath, List.find?_cons_of_pos (by simpa using hpath)]
      rfl
    · rw [if_neg hpath, List.find?_cons_of_neg (by simpa using hpath)]
      rfl

/-! ## A snapshot over another -/

theorem eraseDups_of_nodup {paths : List String} (h : paths.Nodup) : paths.eraseDups = paths := by
  induction paths with
  | nil => rfl
  | cons path rest ih =>
    obtain ⟨hnew, hrest⟩ := List.nodup_cons.1 h
    have hkept : (rest.filter fun p ↦ !p == path) = rest :=
      List.filter_eq_self.2 fun p hp ↦ by simpa using fun heq : p = path ↦ hnew (heq ▸ hp)
    rw [List.eraseDups_cons, hkept, ih hrest]

theorem find?_reverse_entries (s : Snapshot) (path : String) :
    s.entries.reverse.find? (·.path == path) = s.get? path := by
  cases hget : s.get? path with
  | none =>
    refine List.find?_eq_none.2 fun e he hpath ↦ ?_
    cases hget.symm.trans (get?_eq_some.2 ⟨List.mem_reverse.1 he, beq_iff_eq.1 hpath⟩)
  | some e =>
    obtain ⟨he, hpath⟩ := get?_eq_some.1 hget
    have hfound : (s.entries.reverse.find? (·.path == path)).isSome = true :=
      List.find?_isSome.2 ⟨e, List.mem_reverse.2 he, beq_iff_eq.2 hpath⟩
    obtain ⟨d, hd⟩ := Option.isSome_iff_exists.1 hfound
    have hdpath : d.path = path := by simpa using List.find?_some hd
    have hdmem := List.mem_reverse.1 (List.mem_of_find?_eq_some hd)
    rw [hd, ← get?_eq_some.2 ⟨hdmem, hdpath⟩, hget]

/-- **A snapshot can be laid over any other.**  What it does not have stays, and what only it has
comes last, in its order. -/
theorem exists_overlay_entries (s m : Snapshot) :
    ∃ t, overlay s m.entries = .ok t ∧ t.paths = s.paths ++ m.paths.filter (· ∉ s.paths) ∧
      ∀ path, t.get? path = (m.get? path).or (s.get? path) := by
  obtain ⟨t, ht⟩ := exists_overlay_iff.2 fun e he ↦
    (congrArg (Path.isContained ·.path) (normalized_of_mem he)).trans (m.admitted he).2
  have hnormal : m.entries.map Entry.normalized = m.entries :=
    (List.map_congr_left fun e he ↦ normalized_of_mem he).trans (List.map_id _)
  have hpaths : m.entries.map (fun e ↦ e.normalized.path) = m.paths :=
    List.map_congr_left fun e he ↦ congrArg Entry.path (normalized_of_mem he)
  refine ⟨t, ht, ?_, fun path ↦ ?_⟩
  · have hnodup : (m.paths.filter (· ∉ s.paths)).Nodup := m.nodup_paths.filter _
    rw [paths_overlay ht, hpaths, eraseDups_of_nodup hnodup]
  · rw [get?_overlay ht, hnormal, find?_reverse_entries]

/-! ## What changed, laid over what it changed from -/

/-- What stands under a path among the changed entries. -/
theorem get?_modified (before after : Snapshot) (path : String) :
    (before.modified after).get? path =
      (after.get? path).filter (·.IsChangedFrom before.entries) := by
  refine Option.ext fun e ↦ ?_
  rw [get?_eq_some, entries_modified, List.mem_filter, Option.filter_eq_some_iff, get?_eq_some]
  exact and_right_comm

/-- Every path that only the later snapshot has is the path of a changed entry. -/
theorem filter_paths_modified (before after : Snapshot) :
    (before.modified after).paths.filter (· ∉ before.paths) =
      after.paths.filter (· ∉ before.paths) := by
  change ((before.modified after).entries.map Entry.path).filter _ =
    (after.entries.map Entry.path).filter _
  rw [entries_modified, List.filter_map, List.filter_map, List.filter_filter]
  refine congrArg _ (List.filter_congr fun e _ ↦ ?_)
  by_cases hold : e.path ∈ before.paths
  · simp [hold]
  · simp [hold, isChangedFrom_iff]

/-- **What changed between two snapshots is a sufficient patch.**  The changed entries can be laid
over the earlier snapshot one after another.  In the snapshot that comes of it every file of the
later one has its bytes, every entry that only the earlier one has is as it was, and no other path
is there; the paths of the earlier one come first, in its order, and then those that only the later
one has, in its order.  From it, the later one did not change. -/
theorem patch_sufficient (before after : Snapshot) :
    ∃ p, overlay before (before.modified after).entries = .ok p ∧
      (∀ e ∈ after.entries, ∃ d, p.get? e.path = some d ∧ d.bytes = e.bytes) ∧
      (∀ e ∈ before.entries, e.path ∉ after.paths → p.get? e.path = some e) ∧
      (∀ path ∈ p.paths, path ∈ before.paths ∨ path ∈ after.paths) ∧
      p.paths = before.paths ++ after.paths.filter (· ∉ before.paths) ∧
      p.modified after = .empty := by
  obtain ⟨p, hp, hpaths, hget⟩ := exists_overlay_entries before (before.modified after)
  -- an entry that did not change finds its bytes in the earlier snapshot, which stays there
  have hbytes : ∀ e ∈ after.entries, ∃ d, p.get? e.path = some d ∧ d.bytes = e.bytes := by
    intro e he
    rw [hget, get?_modified, get?_eq_some.2 ⟨he, rfl⟩]
    by_cases hchanged : e.IsChangedFrom before.entries
    · refine ⟨e, ?_, rfl⟩
      rw [Option.filter_some_pos (by simpa using hchanged)]
      rfl
    · obtain ⟨d, hd, hpath, hsame⟩ : ∃ d ∈ before.entries, d.path = e.path ∧ d.bytes = e.bytes := by
        simpa [Entry.IsChangedFrom] using hchanged
      refine ⟨d, ?_, hsame⟩
      rw [Option.filter_some_neg (by simpa using hchanged)]
      exact get?_eq_some.2 ⟨hd, hpath⟩
  rw [filter_paths_modified] at hpaths
  refine ⟨p, hp, hbytes, fun e he hgone ↦ ?_, fun path hpath ↦ ?_, hpaths, ?_⟩
  · rw [hget, get?_modified, get?_eq_none.2 hgone, get?_eq_some.2 ⟨he, rfl⟩]
    rfl
  · rw [hpaths] at hpath
    exact (List.mem_append.1 hpath).imp_right List.mem_of_mem_filter
  · refine ext ((entries_modified p after).trans (List.filter_eq_nil_iff.2 fun e he ↦ ?_))
    rw [decide_eq_true_eq]
    intro hchanged
    obtain ⟨d, hd, hsame⟩ := hbytes e he
    obtain ⟨hmem, hpath⟩ := get?_eq_some.1 hd
    exact hchanged d hmem hpath hsame

/-- A file whose bytes become text keeps the entry that it had, one is modified in its place, one
stays though the later snapshot does not have it, and one is added. -/
theorem patch_sufficient_of_recoded :
    ∃ before after p : Snapshot,
      before.entries = [⟨"b.bin", .binary [1]⟩, ⟨"gone", .text ""⟩, ⟨"a.c", .binary [120]⟩] ∧
      after.entries = [⟨"a.c", .text "x"⟩, ⟨"new", .text "n"⟩, ⟨"b.bin", .binary [2]⟩] ∧
      overlay before (before.modified after).entries = .ok p ∧
      p.paths = ["b.bin", "gone", "a.c", "new"] ∧ p.get? "gone" = some ⟨"gone", .text ""⟩ ∧
      (∃ d, p.get? "a.c" = some d ∧ d.bytes = [120]) ∧ p.modified after = .empty := by
  have hbefore : (ofList [⟨"b.bin", .binary [1]⟩, ⟨"gone", .text ""⟩, ⟨"a.c", .binary [120]⟩]).map
      entries = .ok [⟨"b.bin", .binary [1]⟩, ⟨"gone", .text ""⟩, ⟨"a.c", .binary [120]⟩] := by
    decide +kernel
  have hafter : (ofList [⟨"a.c", .text "x"⟩, ⟨"new", .text "n"⟩, ⟨"b.bin", .binary [2]⟩]).map
      entries = .ok [⟨"a.c", .text "x"⟩, ⟨"new", .text "n"⟩, ⟨"b.bin", .binary [2]⟩] := by
    decide +kernel
  obtain ⟨before, -, hb⟩ := Outcome.map_eq_ok.1 hbefore
  obtain ⟨after, -, ha⟩ := Outcome.map_eq_ok.1 hafter
  obtain ⟨p, hp, hbytes, hstays, -, hpaths, hdone⟩ := patch_sufficient before after
  have hbpaths : before.paths = ["b.bin", "gone", "a.c"] := congrArg (List.map Entry.path) hb
  have hapaths : after.paths = ["a.c", "new", "b.bin"] := congrArg (List.map Entry.path) ha
  rw [hbpaths, hapaths] at hpaths
  rw [hb, hapaths] at hstays
  rw [ha] at hbytes
  obtain ⟨d, hd, hsame⟩ := hbytes ⟨"a.c", .text "x"⟩ (by decide)
  exact ⟨before, after, p, hb, ha, hp, hpaths.trans (by decide),
    hstays ⟨"gone", .text ""⟩ (by decide) (by decide), ⟨d, hd, hsame.trans (by decide +kernel)⟩,
    hdone⟩

end Snapshot
end FirmwareLane
