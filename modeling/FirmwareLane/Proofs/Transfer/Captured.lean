import FirmwareLane.Proofs.Transfer.Recording

/-!
# What a capture holds, and what can be captured

A capture that goes well holds one entry for each registered file that a walk finds, in the order of
the walk, whatever the tree looks like: `captured_of_capture` asks neither for a sound tree nor for
names without backslashes.  Where a name has one, the entry stands under the normal form of the path.

A capture goes well exactly if four things hold of the directory: the walk can open what it has to,
every registered file that is classified as text is text, and the paths that the registered files
are recorded under stay below the directory and differ.  The last two only a backslash in a name can
break: it is part of a name in a tree, and a separator in a path that is brought into normal form.
-/

set_option autoImplicit false
namespace FirmwareLane
namespace Transfer

/-- The entry that a capture makes of a found file: under the normal form of its path, the bytes as
they are or, of text, with lines that end in a line feed. -/
structure Found.IsCapturedAs (f : Found) (e : Entry) : Prop where
  path_eq : e.path = Path.normalize (relative f.place)
  binary : f.encoding = .binary → e.content = .binary f.bytes
  text : f.encoding = .text →
    ∃ s, Text.Utf8.string? f.bytes = some s ∧ e.content = .text (Text.withLineFeeds s)

/-- The registered files of the directory at a path, in the order of a walk, and the entries that a
capture makes of them. -/
structure Captured (fs : Files) (root : String) (table : Classification) (files : List Found)
    (entries : List Entry) : Prop where
  files_eq : ∃ place m es, fs.find true root = .ok (.present place (.directory m es)) ∧
    files = found table (.directory m es)
  entries_eq : List.Forall₂ Found.IsCapturedAs files entries

variable {root : String} {table : Classification} {s t : Snapshot}

/-- Files of one place and the same bytes are captured alike. -/
theorem Found.IsCapturedAs.congr {f g : Found} {e d : Entry} (hf : f.IsCapturedAs e)
    (hg : g.IsCapturedAs d) (hplace : f.place = g.place) (hencoding : f.encoding = g.encoding)
    (hbytes : f.bytes = g.bytes) : e = d := by
  have hpath : e.path = d.path := by rw [hf.path_eq, hg.path_eq, hplace]
  suffices hcontent : e.content = d.content by
    obtain ⟨_, _⟩ := e
    obtain ⟨_, _⟩ := d
    rw [Entry.mk.injEq]
    exact ⟨hpath, hcontent⟩
  cases h : f.encoding with
  | binary => rw [hf.binary h, hg.binary (hencoding ▸ h), hbytes]
  | text =>
    obtain ⟨text, htext, heq⟩ := hf.text h
    obtain ⟨text', htext', heq'⟩ := hg.text (hencoding ▸ h)
    rw [hbytes, htext', Option.some.injEq] at htext
    rw [heq, heq', htext]

theorem isCapturedAs_of_content {f : Found} {c : Content}
    (h : content (relative f.place) f.encoding f.bytes = .ok c) :
    f.IsCapturedAs (Entry.mk (relative f.place) c).normalized where
  path_eq := rfl
  binary he := by
    rw [he, content] at h
    exact (Except.ok.inj h).symm
  text he := by
    rw [he, content] at h
    split at h
    · next text htext => exact ⟨text, htext, (Except.ok.inj h).symm⟩
    · exact nomatch h

/-- Found files are added one after another, each as an entry of its own. -/
theorem exists_of_addAll {files : List Found} (h : addAll s (files.map Found.item) = .ok t) :
    ∃ entries, List.Forall₂ Found.IsCapturedAs files entries ∧ t.entries = s.entries ++ entries := by
  induction files generalizing s with
  | nil =>
    obtain rfl := Except.ok.inj h
    exact ⟨[], .nil, (List.append_nil _).symm⟩
  | cons f rest ih =>
    rw [List.map_cons, Found.item, addAll, Outcome.bind_eq_ok] at h
    obtain ⟨b, hb, hadd⟩ := h
    obtain rfl := Except.ok.inj hb
    obtain ⟨u, hu, hrest⟩ := Outcome.bind_eq_ok.1 hadd
    obtain ⟨c, hc, hinsert⟩ := add_eq_ok.1 hu
    obtain ⟨entries, hentries, heq⟩ := ih hrest
    obtain ⟨-, -, hfirst⟩ := Snapshot.insert_eq_ok.1 hinsert
    refine ⟨_, hentries.cons (isCapturedAs_of_content hc), ?_⟩
    rw [heq, hfirst, List.append_assoc, List.singleton_append]

/-- The registered files of a captured node are those that a walk finds. -/
theorem forall₂_of_captureNode {n : Node} (h : captureNode root table n = .ok s) :
    List.Forall₂ Found.IsCapturedAs (found table n) s.entries := by
  rw [captureNode] at h
  rw [registeredBelow_of_passes _ (passes_of_addAll h)] at h
  obtain ⟨entries, hentries, heq⟩ := exists_of_addAll h
  exact heq ▸ hentries

/-- **A capture holds the registered files that a walk finds.** -/
theorem captured_of_capture {fs : Files} (h : capture fs root table = .ok s) :
    ∃ files, Captured fs root table files s.entries := by
  obtain ⟨place, m, es, hfind, hcapture⟩ := capture_eq_ok.1 h
  exact ⟨_, ⟨place, m, es, hfind, rfl⟩, forall₂_of_captureNode hcapture⟩

theorem exists_mem_of_forall₂ {α β : Type} {R : α → β → Prop} {xs : List α} {ys : List β}
    (h : List.Forall₂ R xs ys) {x : α} (hx : x ∈ xs) : ∃ y ∈ ys, R x y := by
  induction h with
  | nil => exact absurd hx List.not_mem_nil
  | cons hfirst _ ih =>
    rcases List.mem_cons.1 hx with rfl | hx
    · exact ⟨_, List.mem_cons_self, hfirst⟩
    · obtain ⟨y, hy, hrel⟩ := ih hx
      exact ⟨y, List.mem_cons_of_mem _ hy, hrel⟩

theorem forall₂_imp_of_mem {α β : Type} {R S : α → β → Prop} {xs : List α} {ys : List β}
    (h : List.Forall₂ R xs ys) (himp : ∀ x ∈ xs, ∀ y, R x y → S x y) : List.Forall₂ S xs ys := by
  induction h with
  | nil => exact .nil
  | cons hfirst _ ih =>
    refine .cons (himp _ List.mem_cons_self _ hfirst) (ih fun x hx ↦ ?_)
    exact himp x (List.mem_cons_of_mem _ hx)

/-- The files that were captured are the registered ones of the directory, each at its place. -/
theorem Captured.mem_iff {fs : Files} {files : List Found} {entries : List Entry}
    (h : Captured fs root table files entries) :
    ∃ place m es, fs.find true root = .ok (.present place (.directory m es)) ∧
      ((Node.directory m es).Sound → ∀ f, f ∈ files ↔
        (Node.directory m es).at? f.place = some (.file f.mode f.bytes f.identity) ∧
          table.encoding? (relative f.place) = some f.encoding) := by
  obtain ⟨place, m, es, hfind, rfl⟩ := h.files_eq
  exact ⟨place, m, es, hfind, fun hsound f ↦ mem_found hsound⟩

theorem Captured.encoding_eq {fs : Files} {files : List Found} {entries : List Entry}
    (h : Captured fs root table files entries) {f : Found} (hf : f ∈ files) :
    table.encoding? (relative f.place) = some f.encoding := by
  obtain ⟨place, m, es, -, rfl⟩ := h.files_eq
  obtain ⟨⟨q, c⟩, -, hfound⟩ := List.mem_filterMap.1 hf
  obtain ⟨-, hplace, hencoding⟩ := found?_eq_some.1 hfound
  exact hplace ▸ hencoding

/-! ## What can be captured -/

/-- The path that a found file is recorded under. -/
def Found.path (f : Found) : String := Path.normalize (relative f.place)

/-- What a capture asks of a directory. -/
structure Capturable (root : String) (table : Classification) (n : Node) : Prop where
  opens : Opens root table [] true n
  text : ∀ f ∈ found table n, f.encoding = .text → ∃ s, Text.Utf8.string? f.bytes = some s
  contained : ∀ f ∈ found table n, Path.isContained f.path = true
  distinct : ((found table n).map Found.path).Nodup

/-- A path leads to a directory that can be captured. -/
def CapturableAt (fs : Files) (root : String) (table : Classification) : Prop :=
  ∃ place m es, fs.find true root = .ok (.present place (.directory m es)) ∧
    Capturable root table (.directory m es)

variable {n : Node}

/-- A file has a content as it is classified unless that is text, and the file is none. -/
theorem exists_content_iff {f : Found} :
    (∃ c, content (relative f.place) f.encoding f.bytes = .ok c) ↔
      (f.encoding = .text → ∃ s, Text.Utf8.string? f.bytes = some s) := by
  cases f.encoding with
  | binary => exact iff_of_true ⟨_, rfl⟩ nofun
  | text =>
    rw [content]
    cases Text.Utf8.string? f.bytes with
    | none => simp
    | some text => exact iff_of_true ⟨_, rfl⟩ fun _ ↦ ⟨text, rfl⟩

/-- **Found files are added one after another exactly if each of them has a content, and a path
that stays below the root and is not taken.** -/
theorem exists_addAll_iff {files : List Found} :
    (∃ t, addAll s (files.map Found.item) = .ok t) ↔
      (∀ f ∈ files, ∃ c, content (relative f.place) f.encoding f.bytes = .ok c) ∧
      (∀ f ∈ files, Path.isContained f.path = true) ∧ (s.paths ++ files.map Found.path).Nodup := by
  induction files generalizing s with
  | nil =>
    refine iff_of_true ⟨s, rfl⟩ ⟨nofun, nofun, ?_⟩
    rw [List.map_nil, List.append_nil]
    exact s.nodup_paths
  | cons f rest ih =>
    -- the paths that are taken before the rest are added
    have hpaths : ∀ {c : Content} {u : Snapshot},
        u.entries = s.entries ++ [(Entry.mk (relative f.place) c).normalized] →
        u.paths ++ rest.map Found.path = s.paths ++ (f :: rest).map Found.path := by
      intro c u hu
      have hu' : u.paths = s.paths ++ [f.path] :=
        (congrArg (List.map Entry.path) hu).trans List.map_append
      rw [hu', List.map_cons, List.append_assoc, List.singleton_append]
    have hstep : (∃ t, addAll s ((f :: rest).map Found.item) = .ok t) ↔
        ∃ c u, content (relative f.place) f.encoding f.bytes = .ok c ∧
          s.insert ⟨relative f.place, c⟩ = .ok u ∧
          ∃ t, addAll u (rest.map Found.item) = .ok t := by
      rw [List.map_cons, Found.item]
      simp only [addAll, Outcome.bind_eq_ok, Except.ok.injEq, exists_eq_left', add_eq_ok]
      constructor
      · rintro ⟨t, u, ⟨c, hc, hu⟩, ht⟩
        exact ⟨c, u, hc, hu, t, ht⟩
      · rintro ⟨c, u, hc, hu, t, ht⟩
        exact ⟨t, u, ⟨c, hc, hu⟩, ht⟩
    rw [hstep, List.forall_mem_cons, List.forall_mem_cons]
    constructor
    · rintro ⟨c, u, hc, hinsert, hrest⟩
      obtain ⟨hcontained, -, hu⟩ := Snapshot.insert_eq_ok.1 hinsert
      obtain ⟨hcontents, hbelow, hnodup⟩ := ih.1 hrest
      exact ⟨⟨⟨c, hc⟩, hcontents⟩, ⟨hcontained, hbelow⟩, hpaths hu ▸ hnodup⟩
    · rintro ⟨⟨⟨c, hc⟩, hcontents⟩, ⟨hcontained, hbelow⟩, hnodup⟩
      have hnew : f.path ∉ s.paths := fun hmem ↦
        (List.nodup_append.1 hnodup).2.2 _ hmem _ List.mem_cons_self rfl
      obtain ⟨u, hinsert⟩ := Snapshot.exists_insert (e := ⟨relative f.place, c⟩) hcontained hnew
      obtain ⟨-, -, hu⟩ := Snapshot.insert_eq_ok.1 hinsert
      exact ⟨c, u, hc, hinsert, ih.2 ⟨hcontents, hbelow, (hpaths hu).symm ▸ hnodup⟩⟩

/-- **A capture goes well exactly if it finds what it asks for.** -/
theorem exists_captureNode_iff (h : n.Sound) :
    (∃ s, captureNode root table n = .ok s) ↔ Capturable root table n := by
  have hadd := @exists_addAll_iff .empty (found table n)
  simp only [exists_content_iff] at hadd
  constructor
  · rintro ⟨s, hs⟩
    rw [captureNode] at hs
    have hopens := (passes_registeredBelow h).1 (passes_of_addAll hs)
    rw [registeredBelow_of_opens h hopens] at hs
    obtain ⟨htext, hcontained, hdistinct⟩ := hadd.1 ⟨s, hs⟩
    exact ⟨hopens, htext, hcontained, hdistinct⟩
  · rintro ⟨hopens, htext, hcontained, hdistinct⟩
    rw [captureNode, registeredBelow_of_opens h hopens]
    exact hadd.2 ⟨htext, hcontained, hdistinct⟩

/-- The same for a path. -/
theorem exists_capture_iff {fs : Files} (h : fs.root.Sound) :
    (∃ s, capture fs root table = .ok s) ↔ CapturableAt fs root table := by
  simp only [capture_eq_ok]
  constructor
  · rintro ⟨s, place, m, es, hfind, hs⟩
    have hsound := Files.sound_of_find h hfind
    exact ⟨place, m, es, hfind, (exists_captureNode_iff hsound).1 ⟨s, hs⟩⟩
  · rintro ⟨place, m, es, hfind, hcapturable⟩
    have hsound := Files.sound_of_find h hfind
    obtain ⟨s, hs⟩ := (exists_captureNode_iff hsound).2 hcapturable
    exact ⟨s, place, m, es, hfind, hs⟩

end Transfer
end FirmwareLane
