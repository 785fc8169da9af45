import FirmwareLane.Proofs.Snapshot.Travelling
import FirmwareLane.Proofs.Transfer.Admission

/-!
# Paths that a snapshot refuses

A path is refused if it leads out of the root, and what leads out of the root is said of the path as
it was written: by the pieces between its separators, of either kind.  The check is made on another
text, though, the normal form, in which the separators are slashes and the pieces that lead nowhere
are gone.

Three of the four ways out are still seen there (`isContained_normalize_iff`): a piece that leads
upwards, a drive in front, and a path that names nothing.  The fourth one is not.  A path that begins
with a separator is absolute, but the normal form has lost the separator (`normalize_cons`) before
anything looks for it, so the path is taken for the one behind it.

`escaping_refused` says what becomes of an entry under any path, added to any snapshot by any of the
ways there are.
-/

set_option autoImplicit false
namespace FirmwareLane

/-! ## The ways out of the root -/

namespace Path

/-- A character that parts a path. -/
def isSeparator (c : Char) : Bool := c == '/' || c == '\\'

/-- What stands between the separators of a path. -/
def pieces (path : String) : List (List Char) := path.toList.splitOnP isSeparator

/-- A piece of a path leads nowhere. -/
def leadsNowhere (piece : List Char) : Bool := piece == [] || piece == ['.']

/-- A path leads upwards somewhere. -/
def LeadsUp (path : String) : Prop := ['.', '.'] ∈ pieces path

/-- The first piece of a path that leads anywhere begins with a drive: a letter and a colon. -/
def BeginsWithDrive (path : String) : Prop :=
  ∃ letter rest, letter.isAlpha = true ∧
    ((pieces path).dropWhile leadsNowhere).head? = some (letter :: ':' :: rest)

/-- A path names nothing. -/
def NamesNothing (path : String) : Prop := ∀ piece ∈ pieces path, leadsNowhere piece = true

/-- A path leads out of the root, in one of the ways that are seen in its normal form. -/
def Escapes (path : String) : Prop := LeadsUp path ∨ BeginsWithDrive path ∨ NamesNothing path

/-! ## Pieces and parts -/

/-- A text is cut at either separator as it is at slashes once the backslashes have become some. -/
theorem splitOn_map_slashed (s : List Char) :
    Text.splitOn '/' (s.map slashed) = s.splitOnP isSeparator := by
  induction s with
  | nil => rfl
  | cons c rest ih =>
    have hseparator : isSeparator c = true ↔ slashed c = '/' := by
      by_cases hc : c = '\\'
      · simp [isSeparator, slashed, hc]
      · simp [isSeparator, slashed, hc]
    rw [List.map_cons, Text.splitOn, ih, List.splitOnP_cons_eq_if_modifyHead]
    by_cases hc : slashed c = '/'
    · rw [if_pos hc, if_pos (hseparator.2 hc)]
    · have hsame : slashed c = c := by
        unfold slashed at hc ⊢
        split
        · next heq => rw [if_pos heq] at hc; exact absurd rfl hc
        · rfl
      rw [if_neg hc, if_neg (mt hseparator.1 hc), hsame]
      cases hsplit : rest.splitOnP isSeparator with
      | nil => exact absurd hsplit (List.splitOnP_ne_nil _ _)
      | cons piece more => rfl

theorem isProper_eq_not (piece : List Char) : isProper piece = !leadsNowhere piece := by
  rw [isProper, leadsNowhere, Bool.not_or, here]
  cases piece <;> rfl

/-- The parts of the normal form are the pieces that lead somewhere. -/
theorem parts_slashed (path : String) :
    parts (path.toList.map slashed) = (pieces path).filter isProper := by
  rw [parts, splitOn_map_slashed, pieces]

theorem slash_not_mem_pieces {path : String} {piece : List Char} (h : piece ∈ pieces path) :
    '/' ∉ piece := by
  rw [pieces, ← splitOn_map_slashed] at h
  exact not_mem_of_mem_splitOn h

/-! ## The check sees the pieces -/

/-- Joined parts begin with a drive if the first of them does. -/
theorem hasDrive_join {p : List Char} (hp : p ≠ []) (ps : List (List Char)) :
    hasDrive (join (p :: ps)) = hasDrive p := by
  cases ps with
  | nil => rfl
  | cons q more =>
    rw [join_cons (List.cons_ne_nil q more), Bool.eq_iff_iff, hasDrive_iff, hasDrive_iff]
    match p, hp with
    | [c], _ => simp
    | c :: d :: rest, _ => simp

theorem leadsUp_iff {path : String} : LeadsUp path ↔ above ∈ (pieces path).filter isProper := by
  rw [List.mem_filter]
  exact ⟨fun h ↦ ⟨h, by decide⟩, And.left⟩

theorem beginsWithDrive_iff {path : String} :
    BeginsWithDrive path ↔ ∃ p, ((pieces path).filter isProper).head? = some p ∧ hasDrive p = true := by
  have hfirst : ((pieces path).filter isProper).head? =
      ((pieces path).dropWhile leadsNowhere).head? := by
    rw [List.head?_filter, List.find?_eq_head?_dropWhile_not]
    simp only [isProper_eq_not, Bool.not_not]
  rw [BeginsWithDrive, hfirst]
  simp only [hasDrive_iff]
  constructor
  · rintro ⟨letter, rest, hletter, heq⟩
    exact ⟨_, heq, letter, rest, hletter, rfl⟩
  · rintro ⟨p, heq, letter, rest, hletter, rfl⟩
    exact ⟨letter, rest, hletter, heq⟩

theorem namesNothing_iff {path : String} :
    NamesNothing path ↔ (pieces path).filter isProper = [] := by
  rw [List.filter_eq_nil_iff, NamesNothing]
  simp only [isProper_eq_not, Bool.not_eq_true', Bool.not_eq_false]

/-- **The check of the normal form sees a way out in the pieces of the path**, but for a separator
in front. -/
theorem isContained_normalize_iff (path : String) :
    isContained (normalize path) = true ↔ ¬ Escapes path := by
  have hslash : ∀ p ∈ (pieces path).filter isProper, '/' ∉ p :=
    fun p hp ↦ slash_not_mem_pieces (List.mem_filter.1 hp).1
  have hproper : ∀ p ∈ (pieces path).filter isProper, p ≠ [] :=
    fun p hp ↦ (isProper_iff.1 (List.mem_filter.1 hp).2).1
  rw [isContained, normalize, String.toList_ofList, normalChars, parts_slashed, Escapes, leadsUp_iff,
    beginsWithDrive_iff, namesNothing_iff]
  cases hps : (pieces path).filter isProper with
  | nil => simp [join, containedChars]
  | cons p ps =>
    rw [hps] at hslash hproper
    have hhead := head?_join hslash hproper
    have hempty : (join (p :: ps)).isEmpty = false := by
      obtain ⟨c, hc⟩ := List.exists_mem_of_ne_nil p (hproper p List.mem_cons_self)
      exact List.isEmpty_eq_false_iff.2 (List.ne_nil_of_mem (mem_join_of_mem List.mem_cons_self hc))
    have habove : ((p :: ps).all (· != above)) = true ↔ above ∉ p :: ps := by
      rw [List.all_eq_true]
      exact ⟨fun h hmem ↦ bne_iff_ne.1 (h _ hmem) rfl,
        fun h q hq ↦ bne_iff_ne.2 fun heq ↦ h (heq ▸ hq)⟩
    rw [containedChars, splitOn_join hslash (List.cons_ne_nil p ps),
      hasDrive_join (hproper p List.mem_cons_self), Bool.and_eq_true, habove, hempty,
      bne_iff_ne.2 hhead]
    simp only [Bool.not_false, Bool.true_and, Bool.not_eq_true', List.head?_cons, Option.some.injEq,
      exists_eq_left', reduceCtorEq, or_false, not_or, Bool.not_eq_true]
    exact and_comm

/-- **A separator in front is lost in the normal form.** -/
theorem normalize_cons {c : Char} (hc : isSeparator c = true) (path : String) :
    normalize (String.ofList (c :: path.toList)) = normalize path := by
  have hparts : ∀ p : String, normalize p = String.ofList (join ((pieces p).filter isProper)) := by
    intro p
    rw [normalize, normalChars, parts_slashed]
  rw [hparts, hparts, pieces, String.toList_ofList, List.splitOnP_cons_eq_if_modifyHead, if_pos hc,
    List.filter_cons_of_neg (by decide), pieces]

end Path

/-! ## Entries under a path -/

namespace Snapshot

open Json (Wire)

variable {s : Snapshot} {e : Entry}

/-- Only the normal form of a path counts. -/
theorem insert_congr {d e : Entry} (h : d.normalized = e.normalized) (s : Snapshot) :
    s.insert d = s.insert e ∧ s.upsert d = s.upsert e := by
  have hinsert : Catalogue.insert d = Catalogue.insert e := by simp only [Catalogue.insert, h]
  have hupsert : Catalogue.upsert d = Catalogue.upsert e := by simp only [Catalogue.upsert, h]
  simp only [insert, upsert, hinsert, hupsert, and_self]

theorem insert_of_contains (h : s.catalogue.contains e.normalized.path = true) :
    s.insert e = .error (.duplicatePath e.normalized.path) := by
  have hadmitted := s.consistent.admitted _ ((s.consistent.contains_iff _).1 h)
  have hperform : ((Catalogue.insert e).perform s.catalogue).1 =
      .error (.duplicatePath e.normalized.path) := by
    rw [Catalogue.perform_insert, if_pos hadmitted.2, if_pos h]
  rw [insert, after, hperform]
  rfl

/-- An entry that stays below the root takes the place of the one under its path, or is added. -/
theorem exists_upsert (h : Path.isContained e.normalized.path = true) (s : Snapshot) :
    ∃ t, s.upsert e = .ok (t, s.get? e.normalized.path) := by
  refine ⟨⟨_, Catalogue.consistent_upsert s.consistent e⟩, ?_⟩
  have hperform : ((Catalogue.upsert e).perform s.catalogue).1 =
      .ok (s.get? e.normalized.path) := by
    rw [Catalogue.perform_upsert, get?, Catalogue.get?]
    cases hlookup : s.catalogue.positions.lookup e.normalized.path with
    | some i => rfl
    | none =>
      have hnew : ¬ s.catalogue.contains e.normalized.path = true := by
        rw [Catalogue.contains, hlookup]
        exact Bool.false_ne_true
      rw [Catalogue.perform_insert, if_pos h, if_neg hnew]
      rfl
  rw [upsert, after, hperform]
  rfl

/-! ## Entries on their way -/

/-- The catalogue that a change leaves, unless it is refused. -/
def Catalogue.left (change : Catalogue.Change Unit) (c : Catalogue) : Except Refusal Catalogue :=
  (change.perform c).1.map fun _ ↦ (change.perform c).2

theorem Catalogue.left_insertAll_cons (e : Entry) (rest : List Entry) (c : Catalogue) :
    left (insertAll (e :: rest)) c = left (insert e) c >>= left (insertAll rest) := by
  rw [left, left, insertAll, Action.perform_bind]
  rcases (insert e).perform c with ⟨r | u, d⟩ <;> rfl

theorem Catalogue.ofList_eq_left (entries : List Entry) :
    ofList entries = left (insertAll entries) empty := by
  rw [ofList, left]
  rcases (insertAll entries).perform empty with ⟨r | u, c⟩ <;> rfl

theorem map_catalogue_insert (s : Snapshot) (e : Entry) :
    (s.insert e).map catalogue = Catalogue.left (Catalogue.insert e) s.catalogue := by
  rw [insert, after, Catalogue.left]
  cases ((Catalogue.insert e).perform s.catalogue).1 <;> rfl

theorem map_catalogue_foldlM (s : Snapshot) (entries : List Entry) :
    (entries.foldlM insert s).map catalogue =
      Catalogue.left (Catalogue.insertAll entries) s.catalogue := by
  induction entries generalizing s with
  | nil => rfl
  | cons e rest ih =>
    rw [List.foldlM_cons, Catalogue.left_insertAll_cons, ← map_catalogue_insert]
    cases s.insert e with
    | error r => rfl
    | ok t => exact ih t

theorem map_catalogue_ofList (entries : List Entry) :
    (ofList entries).map catalogue = Catalogue.ofList entries := by
  rw [ofList]
  split <;> exact (Eq.symm ‹_›)

/-- **The snapshot of entries is what their additions to no files come to.** -/
theorem ofList_eq_foldlM (entries : List Entry) : ofList entries = entries.foldlM insert empty := by
  have hsame : (ofList entries).map catalogue = (entries.foldlM insert empty).map catalogue := by
    rw [map_catalogue_ofList, map_catalogue_foldlM, Catalogue.ofList_eq_left]
    rfl
  rcases Outcome.map_eq_map hsame with ⟨r, hr, hr'⟩ | ⟨s, t, hs, ht, heq⟩
  · rw [hr, hr']
  · rw [hs, ht, ext (congrArg Catalogue.entries heq)]

/-- **An entry among others is added to the snapshot of those before it**; if it is refused, so is
all. -/
theorem ofList_append_cons {before : List Entry} (h : ofList before = .ok s) (e : Entry)
    (rest : List Entry) : ofList (before ++ e :: rest) = s.insert e >>= (rest.foldlM insert) := by
  rw [ofList_eq_foldlM] at h
  rw [ofList_eq_foldlM, List.foldlM_append, h]
  rfl

/-- Entries as they are sent. -/
def sent (entries : List Entry) : String := (Json.array (entries.map Wire.encode)).print

/-- **What arrives is the snapshot of the entries that were sent**, or its refusal. -/
theorem ofText_sent (entries : List Entry) :
    Wire.ofText (sent entries) = (ofList entries).mapError fun r ↦ Json.Fault.refused r.message := by
  have hwithin : Json.Within Json.greatestDepth (.array (entries.map Wire.encode)) :=
    (Entry.within_array entries).mono (by decide)
  rw [Wire.ofText, sent, (Json.readText_print hwithin).1, Wire.ofDocument_false]
  have hsequence : Json.sequence (Wire.decode (α := Entry)) .text
      (.ofJson (.array (entries.map Wire.encode))) = .ok entries :=
    Json.sequence_array fun e _ ↦ e.travels.written
  change (Json.sequence (Wire.decode (α := Entry)) .text _ >>= _) = _
  rw [hsequence, Outcome.ok_bind]
  cases ofList entries <;> rfl

/-! ## What becomes of an entry -/

/-- **Exactly the paths that escape are refused, but for a separator in front.**  Whatever the
snapshot, adding an entry to it, or putting it in the place of another, is refused for its path
exactly if the path escapes, with the path in normal form.  Any other path is admitted: the entry is
added unless there is one under the normal form already, whose place it may take.  An entry that
arrives among others is added to the snapshot of those before it.  A separator in front of a path
makes no difference, so an absolute path is taken for one below the root. -/
theorem escaping_refused (path : String) (content : Content) (s : Snapshot) :
    ((∃ q, s.insert ⟨path, content⟩ = .error (.escapesRoot q)) ↔ Path.Escapes path) ∧
      ((∃ q, s.upsert ⟨path, content⟩ = .error (.escapesRoot q)) ↔ Path.Escapes path) ∧
      (Path.Escapes path →
        s.insert ⟨path, content⟩ = .error (.escapesRoot (Path.normalize path)) ∧
        s.upsert ⟨path, content⟩ = .error (.escapesRoot (Path.normalize path))) ∧
      (¬ Path.Escapes path →
        (Path.normalize path ∈ s.paths →
          s.insert ⟨path, content⟩ = .error (.duplicatePath (Path.normalize path))) ∧
        (Path.normalize path ∉ s.paths → ∃ t, s.insert ⟨path, content⟩ = .ok t ∧
          t.entries = s.entries ++ [⟨Path.normalize path, content⟩]) ∧
        ∃ t, s.upsert ⟨path, content⟩ = .ok (t, s.get? (Path.normalize path))) ∧
      (∀ before rest, ofList before = .ok s →
        Wire.ofText (sent (before ++ ⟨path, content⟩ :: rest)) =
          (s.insert ⟨path, content⟩ >>= rest.foldlM insert).mapError
            fun r ↦ Json.Fault.refused r.message) ∧
      ∀ c, Path.isSeparator c = true →
        s.insert ⟨String.ofList (c :: path.toList), content⟩ = s.insert ⟨path, content⟩ ∧
        s.upsert ⟨String.ofList (c :: path.toList), content⟩ = s.upsert ⟨path, content⟩ := by
  have hescapes : Path.Escapes path → Path.isContained (Path.normalize path) ≠ true :=
    fun h hcontained ↦ (Path.isContained_normalize_iff path).1 hcontained h
  have hrefused : Path.Escapes path →
      s.insert ⟨path, content⟩ = .error (.escapesRoot (Path.normalize path)) ∧
      s.upsert ⟨path, content⟩ = .error (.escapesRoot (Path.normalize path)) := fun h ↦
    ⟨insert_of_not_isContained (e := ⟨path, content⟩) (hescapes h) s,
      upsert_of_not_isContained (e := ⟨path, content⟩) (hescapes h) s⟩
  have hadmitted : ¬ Path.Escapes path →
      (Path.normalize path ∈ s.paths →
        s.insert ⟨path, content⟩ = .error (.duplicatePath (Path.normalize path))) ∧
      (Path.normalize path ∉ s.paths → ∃ t, s.insert ⟨path, content⟩ = .ok t ∧
        t.entries = s.entries ++ [⟨Path.normalize path, content⟩]) ∧
      ∃ t, s.upsert ⟨path, content⟩ = .ok (t, s.get? (Path.normalize path)) := by
    intro h
    have hcontained := (Path.isContained_normalize_iff path).2 h
    refine ⟨fun hmem ↦ ?_, fun hnew ↦ ?_, exists_upsert (e := ⟨path, content⟩) hcontained s⟩
    · exact insert_of_contains (e := ⟨path, content⟩) ((s.consistent.contains_iff _).2 hmem)
    · obtain ⟨t, ht⟩ := exists_insert (e := ⟨path, content⟩) hcontained hnew
      exact ⟨t, ht, (insert_eq_ok.1 ht).2.2⟩
  refine ⟨⟨fun ⟨q, hq⟩ ↦ ?_, fun h ↦ ⟨_, (hrefused h).1⟩⟩,
    ⟨fun ⟨q, hq⟩ ↦ ?_, fun h ↦ ⟨_, (hrefused h).2⟩⟩, hrefused, hadmitted, fun before rest h ↦ ?_,
    fun c hc ↦ ?_⟩
  · by_contra h
    obtain ⟨hold, hnew, -⟩ := hadmitted h
    by_cases hmem : Path.normalize path ∈ s.paths
    · cases hq.symm.trans (hold hmem)
    · obtain ⟨t, ht, -⟩ := hnew hmem
      cases hq.symm.trans ht
  · by_contra h
    obtain ⟨-, -, t, ht⟩ := hadmitted h
    cases hq.symm.trans ht
  · rw [ofText_sent, ofList_append_cons h]
  · refine insert_congr ?_ s
    rw [Entry.normalized, Entry.normalized, Path.normalize_cons hc]

/-- One path leads nowhere but to a drive, in a directory that is its own, and one is absolute. -/
theorem escaping_refused_of_absolute :
    Path.Escapes ".\\/C:evil.c" ∧
      Wire.ofText (α := Snapshot) (sent [⟨"/etc//a.c", .text "a"⟩, ⟨".\\/C:evil.c", .text "b"⟩]) =
        .error (.refused "path escapes snapshot root: \"C:evil.c\"") ∧
      ¬ Path.Escapes "/etc//a.c" ∧
      ∃ t, Snapshot.empty.insert ⟨"/etc//a.c", .text "a"⟩ = .ok t ∧
        t.entries = [⟨"etc/a.c", .text "a"⟩] := by
  have hnormal : Path.normalize "/etc//a.c" = "etc/a.c" := by decide +kernel
  have hdrive : Path.normalize ".\\/C:evil.c" = "C:evil.c" := by decide +kernel
  have hescapes : Path.Escapes ".\\/C:evil.c" :=
    .inr (.inl ⟨'C', "evil.c".toList, by decide, by decide +kernel⟩)
  have hadmitted : ¬ Path.Escapes "/etc//a.c" := by
    have hcontained : Path.isContained (Path.normalize "/etc//a.c") = true := by decide +kernel
    exact (Path.isContained_normalize_iff _).1 hcontained
  obtain ⟨-, -, -, habsolute, -, -⟩ := escaping_refused "/etc//a.c" (.text "a") .empty
  obtain ⟨-, hnew, -⟩ := habsolute hadmitted
  obtain ⟨t, ht, hentries⟩ := hnew List.not_mem_nil
  obtain ⟨-, -, hrefused, -, harrives, -⟩ := escaping_refused ".\\/C:evil.c" (.text "b") t
  have hbefore : ofList [⟨"/etc//a.c", .text "a"⟩] = .ok t := by
    rw [ofList_eq_foldlM, List.foldlM_cons, ht]
    rfl
  refine ⟨hescapes, ?_, hadmitted, t, ht, hnormal ▸ hentries⟩
  rw [← List.singleton_append, harrives _ [] hbefore, (hrefused hescapes).1, hdrive]
  decide +kernel

end Snapshot
end FirmwareLane
