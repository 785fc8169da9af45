import FirmwareLane.Proofs.Snapshot.Escaping

/-!
# Lists of entries that make up a snapshot

A snapshot is built from a list of entries by adding them one after another, and whether that goes
well is decided step by step, by looking the next path up among the positions of those that were
added.  Said of the list itself it takes two things: the normal forms of all paths stay below the
root, and they differ (`Acceptable`).

Where a list is not acceptable there is a first entry that keeps it from being so, behind entries
that make up a snapshot (`acceptable_or_offends`), and this is the one that is reported: for its own
path, if that leads out of the root, and only else for an earlier one (`Offends`).
-/

set_option autoImplicit false
namespace FirmwareLane
namespace Snapshot

open Json (Wire)

/-- The paths of entries stay below the root and differ, all in normal form. -/
structure Acceptable (entries : List Entry) : Prop where
  contained : ∀ e ∈ entries, Path.isContained (Path.normalize e.path) = true
  distinct : (entries.map fun e ↦ Path.normalize e.path).Nodup

/-- Why an entry behind others is refused.  That it leads out of the root counts first. -/
inductive Offends (before : List Entry) (e : Entry) : Refusal → Prop
  | escapes (h : Path.isContained (Path.normalize e.path) = false) :
      Offends before e (.escapesRoot (Path.normalize e.path))
  | repeats (h : Path.isContained (Path.normalize e.path) = true) (d : Entry) (hd : d ∈ before)
      (hsame : Path.normalize d.path = Path.normalize e.path) :
      Offends before e (.duplicatePath (Path.normalize e.path))

variable {before entries : List Entry} {e : Entry} {r : Refusal} {s : Snapshot}

theorem acceptable_nil : Acceptable [] := ⟨nofun, List.nodup_nil⟩

theorem acceptable_concat_iff :
    Acceptable (before ++ [e]) ↔ Acceptable before ∧
      Path.isContained (Path.normalize e.path) = true ∧
      ∀ d ∈ before, Path.normalize d.path ≠ Path.normalize e.path := by
  have hdistinct : ((before ++ [e]).map fun e ↦ Path.normalize e.path).Nodup ↔
      (before.map fun e ↦ Path.normalize e.path).Nodup ∧
        ∀ d ∈ before, Path.normalize d.path ≠ Path.normalize e.path := by
    rw [List.map_append, List.map_singleton, ← List.concat_eq_append, List.nodup_concat,
      List.mem_map]
    simp only [not_exists, not_and, Ne, and_comm]
  constructor
  · rintro ⟨hcontained, hnodup⟩
    obtain ⟨hbefore, hlast⟩ := List.forall_mem_append.1 hcontained
    obtain ⟨hnodup, hnew⟩ := hdistinct.1 hnodup
    exact ⟨⟨hbefore, hnodup⟩, hlast e (List.mem_singleton_self e), hnew⟩
  · rintro ⟨⟨hbefore, hnodup⟩, hlast, hnew⟩
    refine ⟨List.forall_mem_append.2 ⟨hbefore, ?_⟩, hdistinct.2 ⟨hnodup, hnew⟩⟩
    exact fun d hd ↦ List.mem_singleton.1 hd ▸ hlast

/-- The next entry behind acceptable ones is acceptable too, or offends. -/
theorem Acceptable.concat_or_offends (h : Acceptable before) (e : Entry) :
    Acceptable (before ++ [e]) ∨ ∃ r, Offends before e r := by
  cases hcontained : Path.isContained (Path.normalize e.path) with
  | false => exact .inr ⟨_, .escapes hcontained⟩
  | true =>
    by_cases hold : ∃ d ∈ before, Path.normalize d.path = Path.normalize e.path
    · obtain ⟨d, hd, hsame⟩ := hold
      exact .inr ⟨_, .repeats hcontained d hd hsame⟩
    · push Not at hold
      exact .inl (acceptable_concat_iff.2 ⟨h, hcontained, hold⟩)

/-- **A list of entries is acceptable, or has a first entry that offends.** -/
theorem acceptable_or_offends (entries : List Entry) :
    Acceptable entries ∨ ∃ before e rest r, entries = before ++ e :: rest ∧ Acceptable before ∧
      Offends before e r := by
  induction entries using List.reverseRecOn with
  | nil => exact .inl acceptable_nil
  | append_singleton front e ih =>
    rcases ih with hfront | ⟨before, d, rest, r, rfl, hbefore, hoffends⟩
    · rcases hfront.concat_or_offends e with hall | ⟨r, hoffends⟩
      · exact .inl hall
      · exact .inr ⟨front, e, [], r, rfl, hfront, hoffends⟩
    · exact .inr ⟨before, d, rest ++ [e], r, List.append_assoc .., hbefore, hoffends⟩

/-- **Acceptable entries make up a snapshot, in their order and under their paths in normal
form.** -/
theorem Acceptable.exists_ofList (h : Acceptable entries) :
    ∃ s, ofList entries = .ok s ∧ s.entries = entries.map Entry.normalized := by
  induction entries using List.reverseRecOn with
  | nil => exact ⟨empty, ofList_eq_foldlM [], rfl⟩
  | append_singleton front e ih =>
    obtain ⟨hfront, hcontained, hnew⟩ := acceptable_concat_iff.1 h
    obtain ⟨s, hs, hentries⟩ := ih hfront
    have hfresh : e.normalized.path ∉ s.paths := by
      change _ ∉ s.entries.map Entry.path
      rw [hentries, List.map_map, List.mem_map]
      rintro ⟨d, hd, hsame⟩
      exact hnew d hd hsame
    obtain ⟨t, ht⟩ := exists_insert hcontained hfresh
    refine ⟨t, ?_, ?_⟩
    · rw [ofList_append_cons hs, ht]
      rfl
    · rw [(insert_eq_ok.1 ht).2.2, hentries, List.map_append, List.map_singleton]

/-- **An entry that offends behind acceptable ones is refused**, whatever comes after it. -/
theorem ofList_of_offends (h : Acceptable before) (hoffends : Offends before e r)
    (rest : List Entry) : ofList (before ++ e :: rest) = .error r := by
  obtain ⟨s, hs, hentries⟩ := h.exists_ofList
  suffices hinsert : s.insert e = .error r by
    rw [ofList_append_cons hs, hinsert]
    rfl
  cases hoffends with
  | escapes hescapes => exact insert_of_not_isContained (ne_true_of_eq_false hescapes) s
  | repeats hcontained d hd hsame =>
    refine insert_of_contains ((s.consistent.contains_iff _).2 ?_)
    change _ ∈ s.entries.map Entry.path
    rw [hentries, List.map_map]
    exact List.mem_map.2 ⟨d, hd, hsame⟩

theorem exists_ofList_iff : (∃ s, ofList entries = .ok s) ↔ Acceptable entries := by
  refine ⟨fun ⟨s, hs⟩ ↦ ?_, fun h ↦ h.exists_ofList.imp fun _ ↦ And.left⟩
  rcases acceptable_or_offends entries with h | ⟨before, e, rest, r, rfl, hbefore, hoffends⟩
  · exact h
  · cases hs.symm.trans (ofList_of_offends hbefore hoffends rest)

theorem ofList_eq_error_iff :
    ofList entries = .error r ↔
      ∃ before e rest, entries = before ++ e :: rest ∧ Acceptable before ∧ Offends before e r := by
  constructor
  · intro hr
    rcases acceptable_or_offends entries with h | ⟨before, e, rest, r', rfl, hbefore, hoffends⟩
    · obtain ⟨s, hs, -⟩ := h.exists_ofList
      cases hs.symm.trans hr
    · cases hr.symm.trans (ofList_of_offends hbefore hoffends rest)
      exact ⟨before, e, rest, rfl, hbefore, hoffends⟩
  · rintro ⟨before, e, rest, rfl, hbefore, hoffends⟩
    exact ofList_of_offends hbefore hoffends rest

theorem normalized_of_mem (he : e ∈ s.entries) : e.normalized = e := by
  rw [Entry.normalized, (s.admitted he).1]

/-- Entries of a snapshot in another order make up a snapshot. -/
theorem exists_ofList_of_perm {entries : List Entry} (h : entries.Perm s.entries) :
    ∃ t, ofList entries = .ok t ∧ t.entries = entries := by
  obtain ⟨hcontained, hdistinct⟩ := exists_ofList_iff.1 ⟨s, ofList_entries s⟩
  have hacceptable : Acceptable entries :=
    ⟨fun e he ↦ hcontained e (h.mem_iff.1 he), (h.map _).nodup_iff.2 hdistinct⟩
  obtain ⟨t, ht, hentries⟩ := hacceptable.exists_ofList
  refine ⟨t, ht, hentries.trans ?_⟩
  exact (List.map_congr_left fun e he ↦ normalized_of_mem (h.mem_iff.1 he)).trans (List.map_id _)

/-- **Building a snapshot accepts exactly what it has to, and reports the first entry that
offends.**  A list of entries, under paths of any form, makes up a snapshot exactly if their normal
forms stay below the root and differ, and then the snapshot has these entries in this order, under
the normal forms and with their contents as they are.  Any other list is refused for the first entry
whose path, in normal form, leads out of the root or else is the one of an earlier entry; the
refusal names it.  A document whose elements are entries stands for the snapshot of these entries,
wherever it comes from, and is refused as they are. -/
theorem ofList_exact (entries : List Entry) :
    ((∃ s, ofList entries = .ok s) ↔ Acceptable entries) ∧
      (∀ s, ofList entries = .ok s →
        s.entries = entries.map fun e ↦ ⟨Path.normalize e.path, e.content⟩) ∧
      (∀ r, ofList entries = .error r ↔ ∃ before e rest,
        entries = before ++ e :: rest ∧ Acceptable before ∧ Offends before e r) ∧
      ∀ origin d, Json.sequence Wire.decode origin d = .ok entries →
        Wire.decode origin d = (ofList entries).mapError fun r ↦ Json.Fault.refused r.message := by
  refine ⟨exists_ofList_iff, fun s hs ↦ ?_, fun r ↦ ofList_eq_error_iff, fun origin d hd ↦ ?_⟩
  · obtain ⟨t, ht, hentries⟩ := (exists_ofList_iff.1 ⟨s, hs⟩).exists_ofList
    obtain rfl := Except.ok.inj (hs.symm.trans ht)
    exact hentries
  · change (Json.sequence Wire.decode origin d >>= _) = _
    rw [hd, Outcome.ok_bind]
    cases ofList entries <;> rfl

/-- Two files, one of them in a second spelling, and then one outside. -/
def spelled : List Entry :=
  [⟨".\\a.c", .text "a"⟩, ⟨"b//c.bin", .binary [0]⟩, ⟨"./a.c", .binary []⟩, ⟨"../d", .text ""⟩]

/-- The first two make up a snapshot.  Of all four, what is reported is the second spelling of the
first file, whether they are at hand or are read from text. -/
theorem ofList_exact_of_spelled :
    (∃ s, ofList (spelled.take 2) = .ok s ∧
      s.entries = [⟨"a.c", .text "a"⟩, ⟨"b/c.bin", .binary [0]⟩]) ∧
    ofList spelled = .error (.duplicatePath "a.c") ∧
    Wire.decode .text (.ofJson (.array (spelled.map Wire.encode))) =
      (Except.error (.refused "duplicate path in snapshot: a.c") : Except Json.Fault Snapshot) := by
  have hacceptable : Acceptable (spelled.take 2) := ⟨by decide +kernel, by decide +kernel⟩
  have hnormal : Path.normalize "./a.c" = "a.c" := by decide +kernel
  have hoffends : Offends (spelled.take 2) ⟨"./a.c", .binary []⟩ (.duplicatePath "a.c") :=
    hnormal ▸ .repeats (by decide +kernel) ⟨".\\a.c", .text "a"⟩ List.mem_cons_self
      (by decide +kernel)
  obtain ⟨haccepted, hentries, -, -⟩ := ofList_exact (spelled.take 2)
  obtain ⟨-, -, hrefused, hdecode⟩ := ofList_exact spelled
  obtain ⟨s, hs⟩ := haccepted.2 hacceptable
  have herror := (hrefused _).2 ⟨_, _, [⟨"../d", .text ""⟩], rfl, hacceptable, hoffends⟩
  refine ⟨⟨s, hs, (hentries s hs).trans (by decide +kernel)⟩, herror, ?_⟩
  rw [hdecode .text _ (Json.sequence_array fun e _ ↦ e.travels.written), herror]
  rfl

end Snapshot
end FirmwareLane
