import FirmwareLane.Proofs.Outcome
import FirmwareLane.Proofs.Transfer.Capturing

/-!
# The snapshot of what is found

The files that a walk finds are recorded one after another.  As they have different places, and the
names of these have no backslash, nothing stands under the path of another, and the snapshot has one
entry for each of them, in their order (`captureNode_eq_ok`).
-/

set_option autoImplicit false
namespace FirmwareLane

/-! ## Adding to a snapshot -/

namespace Snapshot

variable {s t : Snapshot} {e : Entry}

theorem insert_eq_ok :
    s.insert e = .ok t ↔ Path.isContained e.normalized.path = true ∧
      e.normalized.path ∉ s.paths ∧ t.entries = s.entries ++ [e.normalized] := by
  have hperform := Catalogue.perform_insert e s.catalogue
  have hcontains := s.consistent.contains_iff e.normalized.path
  rw [insert, after, Outcome.map_eq_ok]
  simp only [Outcome.map_eq_ok]
  constructor
  · rintro ⟨_, ⟨u, hok, rfl⟩, rfl⟩
    rw [hperform] at hok
    split at hok
    · next hc =>
      split at hok
      · exact nomatch hok
      · next hd =>
        refine ⟨hc, fun hmem ↦ hd (hcontains.2 hmem), ?_⟩
        change ((Catalogue.insert e).perform s.catalogue).2.entries = _
        rw [hperform, if_pos hc, if_neg hd]
        rfl
    · exact nomatch hok
  · rintro ⟨hc, hd, heq⟩
    have hno : s.catalogue.contains e.normalized.path ≠ true := fun h ↦ hd (hcontains.1 h)
    rw [if_pos hc, if_neg hno] at hperform
    refine ⟨_, ⟨(), by rw [hperform], rfl⟩, Snapshot.ext ?_⟩
    change ((Catalogue.insert e).perform s.catalogue).2.entries = _
    rw [hperform, heq]
    rfl

theorem exists_insert (hc : Path.isContained e.normalized.path = true)
    (hd : e.normalized.path ∉ s.paths) : ∃ t, s.insert e = .ok t := by
  refine ⟨⟨((Catalogue.insert e).perform s.catalogue).2,
    Catalogue.consistent_insert s.consistent e⟩, insert_eq_ok.2 ⟨hc, hd, ?_⟩⟩
  have hno : s.catalogue.contains e.normalized.path ≠ true :=
    fun h ↦ hd ((s.consistent.contains_iff _).1 h)
  change ((Catalogue.insert e).perform s.catalogue).2.entries = _
  rw [Catalogue.perform_insert, if_pos hc, if_neg hno]
  rfl

theorem nodup_paths (s : Snapshot) : (s.entries.map Entry.path).Nodup := s.consistent.nodup

theorem admitted (s : Snapshot) {e : Entry} (he : e ∈ s.entries) : Path.IsAdmitted e.path :=
  s.consistent.admitted _ (List.mem_map_of_mem he)

end Snapshot

namespace Transfer

/-- No name in a tree has a backslash. -/
def Plain (n : Node) : Prop := ∀ q c, n.at? q = some c → ∀ name ∈ q, '\\' ∉ name.toList

/-- A found file as it is recorded. -/
def Found.record (f : Found) : Except Fault Entry :=
  (content (relative f.place) f.encoding f.bytes).map fun c ↦ ⟨relative f.place, c⟩

variable {root : String} {table : Classification} {s t : Snapshot} {n : Node}

theorem add_eq_ok {path : String} {e : Encoding} {b : Text.Bytes} :
    add s path e b = .ok t ↔
      ∃ c, content path e b = .ok c ∧ s.insert ⟨path, c⟩ = .ok t := by
  rw [add, Outcome.bind_eq_ok]
  refine exists_congr fun c ↦ and_congr_right fun _ ↦ ?_
  cases s.insert ⟨path, c⟩ with
  | ok u => exact ⟨fun h ↦ congrArg _ (Except.ok.inj h), fun h ↦ congrArg _ (Except.ok.inj h)⟩
  | error r => exact ⟨(nomatch ·), (nomatch ·)⟩

/-- Only what could be opened is added. -/
theorem passes_of_addAll {items : List (Except Fault Registered)} (h : addAll s items = .ok t) :
    Passes items := by
  induction items generalizing s with
  | nil => exact fun _ hx ↦ absurd hx List.not_mem_nil
  | cons x rest ih =>
    intro y hy
    cases x with
    | error fault => exact nomatch h
    | ok r =>
      obtain ⟨path, e, reached⟩ := r
      rw [addAll, Outcome.bind_eq_ok] at h
      obtain ⟨b, hb, hadd⟩ := h
      obtain ⟨u, -, hrest⟩ := Outcome.bind_eq_ok.1 hadd
      rcases List.mem_cons.1 hy with rfl | hy
      · exact ⟨path, e, b, by rw [hb]⟩
      · exact ih hrest y hy

/-- **Found files are added one after another if they can be recorded.** -/
theorem addAll_eq_ok {files : List Found}
    (hnormal : ∀ f ∈ files, Path.normalize (relative f.place) = relative f.place) :
    addAll s (files.map Found.item) = .ok t ↔
      ∃ entries, files.mapM Found.record = .ok entries ∧
        (∀ e ∈ entries, Path.isContained e.path = true) ∧
        ((s.entries ++ entries).map Entry.path).Nodup ∧ t.entries = s.entries ++ entries := by
  induction files generalizing s with
  | nil =>
    rw [List.map_nil, addAll]
    constructor
    · intro h
      obtain rfl := Except.ok.inj h
      refine ⟨[], rfl, fun _ he ↦ absurd he List.not_mem_nil, ?_, (List.append_nil _).symm⟩
      rw [List.append_nil]
      exact s.nodup_paths
    · rintro ⟨entries, hentries, -, -, heq⟩
      obtain rfl : entries = [] := (Outcome.pure_eq_ok.1 hentries).symm
      rw [List.append_nil] at heq
      exact congrArg _ (Snapshot.ext heq.symm)
  | cons f rest ih =>
    have hf := hnormal f List.mem_cons_self
    have hrest := fun g hg ↦ hnormal g (List.mem_cons_of_mem _ hg)
    have hentry : ∀ c, (Entry.mk (relative f.place) c).normalized = ⟨relative f.place, c⟩ :=
      fun c ↦ by rw [Entry.normalized, hf]
    rw [List.map_cons, Found.item, addAll, Outcome.bind_eq_ok]
    simp only [Except.ok.injEq, exists_eq_left', Outcome.bind_eq_ok, add_eq_ok, ih hrest,
      List.mapM_cons, Outcome.pure_eq_ok, Found.record, Outcome.map_eq_ok]
    constructor
    · rintro ⟨u, ⟨c, hc, hinsert⟩, entries, hentries, hcontained, hnodup, heq⟩
      obtain ⟨hpath, -, hu⟩ := Snapshot.insert_eq_ok.1 hinsert
      rw [hentry] at hpath hu
      rw [hu, List.append_assoc, List.singleton_append] at hnodup heq
      refine ⟨_, ⟨_, ⟨c, hc, rfl⟩, _, hentries, rfl⟩, ?_, hnodup, heq⟩
      intro e he
      rcases List.mem_cons.1 he with rfl | he
      · exact hpath
      · exact hcontained e he
    · rintro ⟨_, ⟨_, ⟨c, hc, rfl⟩, entries, hentries, rfl⟩, hcontained, hnodup, heq⟩
      have hpath := hcontained _ List.mem_cons_self
      have hnew : relative f.place ∉ s.paths := by
        rw [List.map_append, List.nodup_append] at hnodup
        exact fun hmem ↦ hnodup.2.2 _ hmem _ List.mem_cons_self rfl
      obtain ⟨u, hinsert⟩ := Snapshot.exists_insert (s := s) (e := ⟨relative f.place, c⟩)
        (by rwa [hentry]) (by rwa [hentry])
      have hu := (Snapshot.insert_eq_ok.1 hinsert).2.2
      rw [hentry] at hu
      refine ⟨u, ⟨c, hc, hinsert⟩, entries, hentries,
        fun e he ↦ hcontained e (List.mem_cons_of_mem _ he), ?_, ?_⟩
      · rw [hu, List.append_assoc, List.singleton_append]
        exact hnodup
      · rw [hu, List.append_assoc, List.singleton_append]
        exact heq

theorem normalize_found (h : n.Sound) (hplain : Plain n) {f : Found} (hf : f ∈ found table n) :
    Path.normalize (relative f.place) = relative f.place := by
  have hat := ((mem_found h).1 hf).1
  exact normalize_relative (Named.parted (h.at? hat).1) (hplain _ _ hat)

/-- **A directory is captured in the snapshot of the files that a walk finds, if the walk can open
what it has to.** -/
theorem captureNode_eq_ok (h : n.Sound) (hplain : Plain n) :
    captureNode root table n = .ok s ↔
      Opens root table [] true n ∧ (found table n).mapM Found.record = .ok s.entries := by
  have hempty : Snapshot.empty.entries = [] := rfl
  have hnormal : ∀ f ∈ found table n, Path.normalize (relative f.place) = relative f.place :=
    fun f ↦ normalize_found h hplain
  have hitems := addAll_eq_ok (s := .empty) (t := s) hnormal
  rw [captureNode]
  constructor
  · intro hcapture
    have hopens := (passes_registeredBelow h).1 (passes_of_addAll hcapture)
    rw [registeredBelow_of_opens h hopens] at hcapture
    obtain ⟨entries, hentries, -, -, heq⟩ := hitems.1 hcapture
    rw [hempty, List.nil_append] at heq
    exact ⟨hopens, heq ▸ hentries⟩
  · rintro ⟨hopens, hentries⟩
    rw [registeredBelow_of_opens h hopens]
    refine hitems.2 ⟨s.entries, hentries, fun e he ↦ (s.admitted he).2, ?_, ?_⟩
    · rw [hempty, List.nil_append]
      exact s.nodup_paths
    · rw [hempty, List.nil_append]

theorem capture_eq_ok {fs : Files} :
    capture fs root table = .ok s ↔
      ∃ place m es, fs.find true root = .ok (.present place (.directory m es)) ∧
        captureNode root table (.directory m es) = .ok s := by
  rw [capture, Outcome.bind_eq_ok]
  constructor
  · rintro ⟨n, hn, hcapture⟩
    rw [directoryAt, Files.node] at hn
    cases hpresent : fs.present true root with
    | error fault => rw [hpresent] at hn; cases hn
    | ok found =>
      obtain ⟨place, node⟩ := found
      rw [hpresent] at hn
      cases node with
      | directory m es =>
        obtain rfl := Except.ok.inj hn
        exact ⟨place, m, es, Files.present_eq_ok.1 hpresent, hcapture⟩
      | file m b i => cases hn
      | link target => cases hn
      | device d => cases hn
  · rintro ⟨place, m, es, hfind, hcapture⟩
    refine ⟨.directory m es, ?_, hcapture⟩
    rw [directoryAt, Files.node, Files.present_eq_ok.2 hfind]
    rfl

end Transfer
end FirmwareLane
