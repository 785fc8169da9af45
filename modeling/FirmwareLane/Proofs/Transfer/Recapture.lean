import FirmwareLane.Proofs.Text.Blank
import FirmwareLane.Proofs.Text.Utf8
import FirmwareLane.Proofs.Transfer.Fresh
import FirmwareLane.Proofs.Transfer.InPlace
import FirmwareLane.Proofs.Transfer.Recording

/-!
# Capturing what was restored

What the capture of a restored directory records is told by the bytes that were written, file by
file.  Line ends are replaced when a file is captured, again when it is written, and once more when
it is captured again, so the same text is recorded only if the first time left nothing to replace
(`content_written`).
-/

set_option autoImplicit false
namespace FirmwareLane
namespace Transfer

open Text (Bytes)

/-! ## One file again -/

/-- A text in which no carriage return stands before a line feed. -/
def HasNarrowEnds (s : String) : Prop := ¬ Text.wideEnd <:+: s.toList

theorem content_text {path : String} {b : Bytes} {c : Content} :
    content path .text b = .ok c ↔
      ∃ s, Text.Utf8.string? b = some s ∧ c = .text (Text.withLineFeeds s) := by
  rw [content]
  cases Text.Utf8.string? b with
  | none => exact ⟨(nomatch ·), fun ⟨_, h, _⟩ ↦ nomatch h⟩
  | some s =>
    constructor
    · intro h
      exact ⟨s, rfl, (Except.ok.inj h).symm⟩
    · rintro ⟨_, h, rfl⟩
      rw [Option.some.inj h]

theorem content_binary {path : String} {b : Bytes} {c : Content} :
    content path .binary b = .ok c ↔ c = .binary b :=
  ⟨fun h ↦ (Except.ok.inj h).symm, fun h ↦ congrArg _ h.symm⟩

theorem withLineFeeds_eq_self_iff {s : String} : Text.withLineFeeds s = s ↔ HasNarrowEnds s := by
  rw [HasNarrowEnds, ← Text.toLineFeeds_eq_self_iff, ← String.toList_inj, Text.toList_withLineFeeds]

theorem withLineFeeds_withLineFeeds_eq_self_iff {s : String} :
    Text.withLineFeeds (Text.withLineFeeds s) = s ↔ HasNarrowEnds s := by
  rw [HasNarrowEnds, ← Text.toLineFeeds_toLineFeeds_eq_self_iff, ← String.toList_inj,
    Text.toList_withLineFeeds, Text.toList_withLineFeeds]

/-- **A file is recorded again as it was**, from what is written for one of its names, unless that
is a text whose line ends are replaced once more, or a text that is not all of the file. -/
theorem content_written {path path' : String} {e e' : Encoding} {b : Bytes} {c d : Content}
    (hc : content path e b = .ok c) (hd : content path' e' b = .ok d) :
    content path e (written d) = .ok c ↔
      ∀ s, d = .text s → HasNarrowEnds s ∧
        ∀ bytes, c = .binary bytes → Text.Utf8.bytes s = bytes := by
  cases e' with
  | binary =>
    obtain rfl := content_binary.1 hd
    exact iff_of_true hc fun s h ↦ nomatch h
  | text =>
    obtain ⟨raw, hraw, rfl⟩ := content_text.1 hd
    simp only [written, Content.text.injEq, forall_eq']
    cases e with
    | text =>
      obtain ⟨raw', hraw', rfl⟩ := content_text.1 hc
      obtain rfl : raw = raw' := Option.some.inj (hraw.symm.trans hraw')
      rw [content_text]
      simp only [Text.Utf8.string?_bytes, Option.some.injEq, exists_eq_left', Content.text.injEq,
        reduceCtorEq, false_imp_iff, implies_true, and_true]
      rw [eq_comm, withLineFeeds_withLineFeeds_eq_self_iff]
    | binary =>
      obtain rfl := content_binary.1 hc
      rw [content_binary]
      simp only [Content.binary.injEq, forall_eq']
      constructor
      · intro hbytes
        -- the file is the text that was written, so capturing it replaced its line ends twice
        have hwritten : raw = Text.withLineFeeds (Text.withLineFeeds raw) := by
          rw [hbytes, Text.Utf8.string?_bytes] at hraw
          exact (Option.some.inj hraw).symm
        have hnarrow : HasNarrowEnds (Text.withLineFeeds raw) := by
          rw [← withLineFeeds_withLineFeeds_eq_self_iff, ← hwritten]
        rw [withLineFeeds_eq_self_iff.2 hnarrow] at hbytes
        exact ⟨hnarrow, hbytes.symm⟩
      · rintro ⟨hnarrow, hbytes⟩
        rw [withLineFeeds_eq_self_iff.2 hnarrow, hbytes]

/-! ## The files of a snapshot -/

/-- A snapshot of found files has an entry for each of them. -/
theorem exists_contents {files : List Found} {entries : List Entry}
    (h : files.mapM Found.record = .ok entries) :
    ∃ xs : List (Found × Content), xs.map Prod.fst = files ∧
      entries = xs.map (fun x ↦ ⟨relative x.1.place, x.2⟩) ∧
      ∀ x ∈ xs, content (relative x.1.place) x.1.encoding x.1.bytes = .ok x.2 := by
  rw [Outcome.mapM_eq_ok] at h
  induction h with
  | nil => exact ⟨[], rfl, rfl, fun _ hx ↦ absurd hx List.not_mem_nil⟩
  | @cons f e files entries hrecord _ ih =>
    obtain ⟨xs, rfl, rfl, hxs⟩ := ih
    obtain ⟨c, hc, rfl⟩ := Outcome.map_eq_ok.1 hrecord
    refine ⟨(f, c) :: xs, rfl, rfl, fun x hx ↦ ?_⟩
    rcases List.mem_cons.1 hx with rfl | hx
    · exact hc
    · exact hxs x hx

/-- The files are recorded as before if the bytes that each has now are. -/
theorem mapM_record_iff {xs : List (Found × Content)} (now : Found × Content → Found)
    (hplace : ∀ x, (now x).place = x.1.place) (hencoding : ∀ x, (now x).encoding = x.1.encoding) :
    (xs.map now).mapM Found.record = .ok (xs.map fun x ↦ ⟨relative x.1.place, x.2⟩) ↔
      ∀ x ∈ xs, content (relative x.1.place) x.1.encoding (now x).bytes = .ok x.2 := by
  rw [Outcome.mapM_eq_ok, List.forall₂_map_left_iff, List.forall₂_map_right_iff, List.forall₂_same]
  refine forall₂_congr fun x _ ↦ ?_
  rw [Found.record, Outcome.map_eq_ok, hplace, hencoding]
  constructor
  · rintro ⟨c, hc, heq⟩
    rw [hc, (Entry.mk.inj heq).2]
  · intro hc
    exact ⟨x.2, hc, rfl⟩

/-! ## The captured directory -/

variable {fs : Files} {root : String} {table : Classification} {R : Place} {n : Node} {f : Found}

theorem closed?_eq_none {full : String} {searchable : Bool} :
    closed? full searchable n = none ↔
      full.utf8ByteSize ≤ Files.greatestPath ∧ searchable = true ∧ n.allows .read = true := by
  rw [closed?]
  split
  · next hsize => exact iff_of_false (Option.some_ne_none _) fun h ↦ absurd h.1 (Nat.not_le.2 hsize)
  · next hsize =>
    split
    · next h =>
      rw [Bool.and_eq_true] at h
      exact iff_of_true rfl ⟨Nat.not_lt.1 hsize, h⟩
    · next h =>
      rw [Bool.and_eq_true] at h
      exact iff_of_false (Option.some_ne_none _) fun hall ↦ h hall.2

theorem place_ne_nil_of_mem_found (hsound : n.Sound) (hdir : n.isDirectory = true)
    (hf : f ∈ found table n) : f.place ≠ [] := by
  intro hnil
  have hat := ((mem_found hsound).1 hf).1
  rw [hnil] at hat
  obtain rfl := Option.some.inj hat
  exact nomatch hdir

/-- What a capture found stands in its place. -/
theorem inPlace_of_mem_found (hR : fs.root.at? R = some n) (hdir : n.isDirectory = true)
    (hsound : n.Sound) (hopens : Opens root table [] true n) (hf : f ∈ found table n) :
    InPlace fs.root root R f := by
  obtain ⟨hat, hencoding⟩ := (mem_found hsound).1 hf
  have hblocked := hopens f.place _ hat
  rw [List.nil_append, blocked?, hencoding, Option.isSome_some, if_pos rfl, closed?_eq_none,
    Bool.true_and] at hblocked
  obtain ⟨hsize, hsearchable, -⟩ := hblocked
  have hne := place_ne_nil_of_mem_found hsound hdir hf
  refine ⟨(hsound.at? hat).1, hne, hsize, fun a ha ↦ ?_, by rw [Node.at?_append, hR]; exact hat⟩
  have hfront : a <+: f.place := ha.trans (List.dropLast_prefix f.place)
  obtain ⟨rest, hrest⟩ := hfront
  have hshort : rest ≠ [] := by
    rintro rfl
    have hlen := ha.length_le
    have hpos := List.length_pos_iff.2 hne
    rw [List.append_nil] at hrest
    rw [hrest, List.length_dropLast] at hlen
    omega
  rw [← hrest] at hat
  obtain ⟨m, es, hplace⟩ := Node.exists_directory_of_at? hshort hat
  have hface : n.faceAt? a = some (.directory m []) := Node.faceAt?_eq_directory.2 ⟨es, hplace⟩
  refine ⟨m, ?_, searchableTo_iff.1 hsearchable a ⟨rest, hrest⟩ ?_ _ hface⟩
  · rw [Node.faceAt?_append hR, hface]
  · intro heq
    rw [← hrest] at heq
    exact hshort (List.self_eq_append_right.1 heq)

/-- A directory in which something was found may be gone through. -/
theorem InPlace.searchable (h : InPlace fs.root root R f) : Files.Searchable fs.root R := by
  have := h.passable [] List.nil_prefix
  rwa [List.append_nil] at this

/-- A file in its place is what its path leads to. -/
theorem InPlace.find_eq (h : InPlace fs.root root R f) (hrooted : Rooted fs root R)
    (follow : Bool) :
    fs.find follow (Path.below root (relative f.place)) =
      .ok (.present (R ++ f.place) (.file f.mode f.bytes f.identity)) := by
  obtain ⟨above, name, hplace⟩ := (List.eq_nil_or_concat' f.place).resolve_left h.nonempty
  have hnamed := h.named
  have hsize := h.size
  have hpass := h.passable
  have hfile := h.file
  rw [hplace] at hnamed hsize hpass hfile ⊢
  rw [List.dropLast_concat] at hpass
  rw [← List.append_assoc] at hfile ⊢
  exact hrooted.find_present hnamed hsize hpass follow hfile rfl

/-- Found files have different places, and none is on the way to another. -/
theorem apart_found (hsound : n.Sound) :
    (found table n).Pairwise fun f g ↦ Apart f.place g.place := by
  have hway : ∀ {f g : Found}, f ∈ found table n → g ∈ found table n → f.place ≠ g.place →
      ¬ f.place <+: g.place := by
    rintro f g hf hg hne ⟨rest, hrest⟩
    have hrestne : rest ≠ [] := by
      rintro rfl
      rw [List.append_nil] at hrest
      exact hne hrest
    have hgat := ((mem_found hsound).1 hg).1
    rw [← hrest] at hgat
    obtain ⟨m, es, hdir⟩ := Node.exists_directory_of_at? hrestne hgat
    exact nomatch hdir.symm.trans ((mem_found hsound).1 hf).1
  refine (sorted_found hsound).imp_of_mem @fun f g hf hg hlt ↦ ?_
  have hne : f.place ≠ g.place := by
    intro heq
    rw [heq] at hlt
    exact List.lt_irrefl _ hlt
  exact ⟨hway hf hg hne, hway hg hf hne.symm⟩

/-- Lists of files in the order of their places are equal if they have the same files. -/
theorem eq_of_sorted_of_mem_iff {files files' : List Found}
    (h : files.Pairwise fun f g ↦ f.place < g.place)
    (h' : files'.Pairwise fun f g ↦ f.place < g.place) (hmem : ∀ f, f ∈ files ↔ f ∈ files') :
    files = files' := by
  have : Std.Irrefl fun f g : Found ↦ f.place < g.place := ⟨fun f ↦ List.lt_irrefl _⟩
  have : Std.Antisymm fun f g : Found ↦ f.place < g.place :=
    ⟨fun f g hlt hgt ↦ absurd hgt (List.lt_asymm hlt)⟩
  exact List.Pairwise.eq_of_mem_iff h h' hmem

/-! ## After a restore into an empty directory -/

/-- A found file with its recorded content, as a new file. -/
def renewed (x : Found × Content) : Found :=
  ⟨x.1.place, x.1.encoding, Node.fileMode, written x.2, 0⟩

theorem found_of_holds {tree : Node} {F : Place} {xs : List (Found × Content)}
    (hsound : tree.Sound) (hF : tree.at? F = some n) (hdir : n.isDirectory = true)
    (hholds : Holds tree F (xs.map fun x ↦ (x.1.place, written x.2)))
    (hsorted : xs.Pairwise fun x y ↦ x.1.place < y.1.place)
    (hxs : ∀ x ∈ xs, table.encoding? (relative x.1.place) = some x.1.encoding) :
    found table n = xs.map renewed := by
  have hn : n.Sound := (hsound.at? hF).2
  refine eq_of_sorted_of_mem_iff (sorted_found hn) (List.pairwise_map.2 hsorted) fun g ↦ ?_
  rw [mem_found hn, ← Node.faceAt?_eq_file, ← Node.faceAt?_append hF, List.mem_map]
  constructor
  · rintro ⟨hface, hencoding⟩
    have hne : g.place ≠ [] := by
      intro hnil
      rw [hnil, List.append_nil, Node.faceAt?_eq_file, hF] at hface
      obtain rfl := Option.some.inj hface
      exact nomatch hdir
    rcases hholds.only g.place _ hne hface with ⟨b, hb, heq⟩ | ⟨heq, -⟩
    · obtain ⟨x, hx, hpair⟩ := List.mem_map.1 hb
      obtain ⟨hplace, rfl⟩ := Prod.mk.inj hpair
      obtain ⟨hm, hb, hi⟩ := Node.file.inj heq
      have he : x.1.encoding = g.encoding :=
        Option.some.inj ((hxs x hx).symm.trans (hplace ▸ hencoding))
      refine ⟨x, hx, ?_⟩
      obtain ⟨place, encoding, m, b, i⟩ := g
      subst hm hb hi he hplace
      rfl
    · exact nomatch heq
  · rintro ⟨x, hx, rfl⟩
    exact ⟨hholds.file _ _ (List.mem_map.2 ⟨x, hx, rfl⟩), hxs x hx⟩

/-! ## After a restore over the files that were captured -/

/-- A found file with the bytes that it has after entries were written. -/
def current (R : Place) (xs : List (Found × Content)) (f : Found) : Found :=
  { f with bytes := (rewrites R xs (R ++ f.place) (.file f.mode f.bytes f.identity)).bytes }

theorem found_of_rewritten {tree tree' n' : Node} {xs : List (Found × Content)}
    (hsound : tree.Sound) (hsound' : tree'.Sound) (hn : tree.at? R = some n)
    (hn' : tree'.at? R = some n') (h : Rewritten tree R xs tree') :
    found table n' = (found table n).map (current R xs) := by
  have hs := (hsound.at? hn).2
  have hs' := (hsound'.at? hn').2
  refine eq_of_sorted_of_mem_iff (sorted_found hs') (List.pairwise_map.2 (sorted_found hs)) fun g ↦ ?_
  rw [mem_found hs', ← Node.faceAt?_eq_file, ← Node.faceAt?_append hn', h, Option.map_eq_some_iff,
    List.mem_map]
  constructor
  · rintro ⟨⟨c, hc, hrewrites⟩, hencoding⟩
    have houtline := outline_rewrites R xs (R ++ g.place) c
    rw [hrewrites] at houtline
    cases c with
    | file m b i =>
      obtain ⟨rfl, -, rfl⟩ := Node.file.inj houtline
      refine ⟨⟨g.place, g.encoding, g.mode, b, g.identity⟩, ?_, ?_⟩
      · rw [mem_found hs, ← Node.faceAt?_eq_file, ← Node.faceAt?_append hn]
        exact ⟨hc, hencoding⟩
      · rw [current, hrewrites]
        rfl
    | directory m es => exact nomatch houtline
    | link target => exact nomatch houtline
    | device d => exact nomatch houtline
  · rintro ⟨f, hf, rfl⟩
    obtain ⟨hat, hencoding⟩ := (mem_found hs).1 hf
    refine ⟨⟨.file f.mode f.bytes f.identity, ?_, ?_⟩, hencoding⟩
    · change tree.faceAt? (R ++ f.place) = _
      rw [Node.faceAt?_append hn, Node.faceAt?_eq_file, hat]
    · obtain ⟨b, hb⟩ := exists_rewrites_file R xs (R ++ f.place) f.mode f.bytes f.identity
      rw [current, hb]
      rfl

theorem rewritten_file (R : Place) (f g : Found) (m : Nat) (b c : Bytes) :
    Node.rewritten (R ++ g.place) g.identity b (R ++ f.place) (.file m c f.identity) =
      .file m (if f.Same g then b else c) f.identity := by
  have hsame : (R ++ f.place = R ++ g.place ∨ (g.identity ≠ 0 ∧ f.identity = g.identity)) ↔
      f.Same g := by
    rw [Found.Same, List.append_cancel_left_eq]
  rw [Node.rewritten]
  by_cases h : f.Same g
  · rw [if_pos h, if_pos (hsame.2 h)]
  · rw [if_neg h, if_neg (mt hsame.1 h)]

/-- **A file has the bytes that were written to it last.** -/
theorem bytes_current {before after : List (Found × Content)} {y : Found × Content}
    (hsame : f.Same y.1) (hafter : ∀ z ∈ after, ¬ f.Same z.1) :
    (current R (before ++ y :: after) f).bytes = written y.2 := by
  have hfile : rewrites R (before ++ y :: after) (R ++ f.place) (.file f.mode f.bytes f.identity) =
      .file f.mode (written y.2) f.identity := by
    induction after using List.reverseRecOn with
    | nil =>
      obtain ⟨b, hb⟩ := exists_rewrites_file R before (R ++ f.place) f.mode f.bytes f.identity
      rw [rewrites_concat, hb, rewritten_file, if_pos hsame]
    | append_singleton front z ih =>
      have hz := hafter z (List.mem_append_right _ (List.mem_singleton_self z))
      rw [← List.cons_append, ← List.append_assoc, rewrites_concat,
        ih fun x hx ↦ hafter x (List.mem_append_left _ hx), rewritten_file, if_neg hz]
  rw [current, hfile]
  rfl

/-- Something that holds of a list's element holds of a last one. -/
theorem exists_last {α : Type} {P : α → Prop} {xs : List α} (h : ∃ x ∈ xs, P x) :
    ∃ before y after, xs = before ++ y :: after ∧ P y ∧ ∀ z ∈ after, ¬ P z := by
  induction xs with
  | nil =>
    obtain ⟨x, hx, -⟩ := h
    exact absurd hx List.not_mem_nil
  | cons x rest ih =>
    by_cases hrest : ∃ x ∈ rest, P x
    · obtain ⟨before, y, after, rfl, hy, hafter⟩ := ih hrest
      exact ⟨x :: before, y, after, rfl, hy, hafter⟩
    · refine ⟨[], x, rest, rfl, ?_, fun z hz hP ↦ hrest ⟨z, hz, hP⟩⟩
      obtain ⟨y, hy, hP⟩ := h
      rcases List.mem_cons.1 hy with rfl | hy
      · exact hP
      · exact absurd ⟨y, hy, hP⟩ hrest

end Transfer
end FirmwareLane
