import FirmwareLane.Proofs.Transfer.Recapture

/-!
# When a round trip is stable

A directory is captured, the snapshot is restored, and the restored directory is captured again.
The second snapshot is not always the first: line ends are replaced at each of the three steps, and
replacing them once can leave new ones to replace, so that a text shrinks with each capture.
`round_trip_iff` tells exactly when the two snapshots are the same.

Into an empty directory, the round trip is stable if the paths are not too long there and no
recorded text has a carriage return before a line feed.  Into the captured directory itself, the
files have to be writable, and a file with several names counts under the one that is written last:
if that is a text, its line ends must leave nothing to replace, and it must be all of the file if
another name of the file was recorded as bytes.
-/

set_option autoImplicit false
namespace FirmwareLane
namespace Transfer

open Action (perform)
open Text (Bytes)

/-! ## Round trips -/

/-- A snapshot can be restored into a directory, and capturing that directory gives it again. -/
def IsStable (fs : Files) (root : String) (table : Classification) (s : Snapshot) : Prop :=
  ∃ fs', perform (restore root s) fs = (.ok (), fs') ∧ capture fs' root table = .ok s

/-- A path leads to an empty directory in which everything may be done. -/
def IsEmptyDirectory (fs : Files) (root : String) : Prop :=
  ∃ place m, fs.find true root = .ok (.present place (.directory m [])) ∧
    (Node.directory m []).allows .read = true ∧ (Node.directory m []).allows .write = true ∧
    (Node.directory m []).allows .search = true

/-- Two entries are of one file below a root, under one name or under two. -/
def SameFile (fs : Files) (root : String) (x y : Entry) : Prop :=
  x.path = y.path ∨ ∃ m b i, i ≠ 0 ∧ fs.node (Path.below root x.path) = .ok (.file m b i) ∧
    fs.node (Path.below root y.path) = .ok (.file m b i)

/-- The file of an entry below a root may be written. -/
def MayWrite (fs : Files) (root : String) (e : Entry) : Prop :=
  ∃ n, fs.node (Path.below root e.path) = .ok n ∧ n.allows .write = true

variable {fs fs' : Files} {root : String} {table : Classification} {s : Snapshot} {R : Place}

/-- What is done for each of a list was done at some time. -/
theorem exists_of_perform_forM {α σ ε : Type} {act : α → Action σ ε PUnit} {xs : List α} {a b : σ}
    (h : perform (xs.forM act) a = (.ok ⟨⟩, b)) {x : α} (hx : x ∈ xs) :
    ∃ a' b', perform (act x) a' = (.ok ⟨⟩, b') := by
  induction xs generalizing a with
  | nil => exact absurd hx List.not_mem_nil
  | cons y rest ih =>
    rw [Action.perform_forM_cons, Action.perform_bind] at h
    split at h
    · next hfirst =>
      rcases List.mem_cons.1 hx with rfl | hx
      · exact ⟨_, _, hfirst⟩
      · exact ih h hx
    · exact nomatch (Prod.mk.inj h).1

/-! ## Into an empty directory -/

theorem allows_read_newFile (b : Bytes) : (newFile b).allows .read = true := by
  change (newFile []).allows .read = true
  decide

/-- A directory that holds nothing but new files can be captured. -/
theorem opens_of_holds {tree : Node} {F : Place} {m : Nat} {es : List (String × Node)}
    {xs : List (Found × Content)} {fresh : String} (hF : tree.at? F = some (.directory m es))
    (hread : (Node.directory m []).allows .read = true)
    (hsearch : (Node.directory m []).allows .search = true)
    (hholds : Holds tree F (xs.map fun x ↦ (x.1.place, written x.2)))
    (hpath : Files.IsPath fresh) (hnamed : ∀ x ∈ xs, Named x.1.place)
    (hsize : ∀ x ∈ xs, (Path.below fresh (relative x.1.place)).utf8ByteSize ≤ Files.greatestPath) :
    Opens fresh table [] true (.directory m es) := by
  intro q c hc
  have hface : tree.faceAt? (F ++ q) = some c.face := by
    rw [Node.faceAt?_append hF, Node.faceAt?, hc]
    rfl
  have hsearchable : searchableTo q (.directory m es) = true := by
    refine searchableTo_iff.2 fun a ha hne d hd ↦ ?_
    obtain ⟨rest, rfl⟩ := ha
    have hrest : rest ≠ [] := by
      rintro rfl
      exact hne (List.append_nil a).symm
    obtain ⟨k, es', hdir⟩ := Node.exists_directory_of_at? hrest hc
    have hd' : d = .directory k [] := by
      rw [Node.faceAt?_eq_directory.2 ⟨es', hdir⟩] at hd
      exact (Option.some.inj hd).symm
    by_cases hnil : a = []
    · subst hnil
      obtain ⟨rfl, -⟩ := Node.directory.inj (Option.some.inj hdir)
      rw [hd']
      exact hsearch
    · rw [← Node.faceAt?_append hF] at hd
      rcases hholds.only a d hnil hd with ⟨b, -, heq⟩ | ⟨rfl, -⟩
      · cases heq.symm.trans hd'
      · decide
  rw [List.nil_append, hsearchable]
  by_cases hnil : q = []
  · subst hnil
    obtain rfl := Option.some.inj hc
    exact closed?_eq_none.2 ⟨hpath.size, rfl, hread⟩
  · rcases hholds.only q _ hnil hface with ⟨b, hb, heq⟩ | ⟨heq, p, b, hb, hq, -⟩
    · obtain ⟨x, hx, hpair⟩ := List.mem_map.1 hb
      obtain ⟨rfl, -⟩ := Prod.mk.inj hpair
      obtain rfl := Node.face_eq_file.1 heq
      rw [blocked?]
      split
      · exact closed?_eq_none.2 ⟨hsize x hx, rfl, allows_read_newFile b⟩
      · rfl
    · obtain ⟨es', rfl⟩ := Node.face_eq_directory.1 heq
      obtain ⟨x, hx, hpair⟩ := List.mem_map.1 hb
      obtain ⟨rfl, -⟩ := Prod.mk.inj hpair
      obtain ⟨rest, hrest⟩ := hq
      have hnames := hnamed x hx
      have hlong := hsize x hx
      rw [← hrest] at hnames hlong
      have hshort := utf8ByteSize_below_le hpath.nonempty hnil hnames.parted
      refine closed?_eq_none.2 ⟨?_, rfl, (Files.allows_directory _ _ es').trans (by decide)⟩
      rw [fullPath, List.isEmpty_eq_false_iff.2 hnil]
      exact hshort.trans hlong

/-- The names in a directory that holds new files are those on the way to them. -/
theorem plain_of_holds {tree : Node} {F : Place} {m : Nat} {es : List (String × Node)}
    {xs : List (Found × Content)} (hF : tree.at? F = some (.directory m es))
    (hholds : Holds tree F (xs.map fun x ↦ (x.1.place, written x.2)))
    (hback : ∀ x ∈ xs, ∀ name ∈ x.1.place, '\\' ∉ name.toList) : Plain (.directory m es) := by
  intro q c hc name hname
  have hface : tree.faceAt? (F ++ q) = some c.face := by
    rw [Node.faceAt?_append hF, Node.faceAt?, hc]
    rfl
  have hnil : q ≠ [] := List.ne_nil_of_mem hname
  obtain ⟨p, b, hb, hq⟩ : ∃ p b, (p, b) ∈ xs.map (fun x ↦ (x.1.place, written x.2)) ∧ q <+: p := by
    rcases hholds.only q _ hnil hface with ⟨b, hb, -⟩ | ⟨-, p, b, hb, hq, -⟩
    · exact ⟨q, b, hb, List.prefix_rfl⟩
    · exact ⟨p, b, hb, hq⟩
  obtain ⟨x, hx, hpair⟩ := List.mem_map.1 hb
  obtain ⟨rfl, -⟩ := Prod.mk.inj hpair
  exact hback x hx name (hq.subset hname)

/-- What is known of a snapshot of found files. -/
structure IsRecord (s : Snapshot) (table : Classification) (xs : List (Found × Content)) : Prop where
  entries : s.entries = xs.map fun x ↦ ⟨relative x.1.place, x.2⟩
  content : ∀ x ∈ xs, content (relative x.1.place) x.1.encoding x.1.bytes = .ok x.2
  encoding : ∀ x ∈ xs, table.encoding? (relative x.1.place) = some x.1.encoding
  named : ∀ x ∈ xs, Named x.1.place ∧ x.1.place ≠ []
  sorted : xs.Pairwise fun x y ↦ x.1.place < y.1.place
  apart : xs.Pairwise fun x y ↦ Apart x.1.place y.1.place

/-- A directory that a path leads to is captured in the snapshot of the files found in it. -/
theorem capture_of_rooted (table : Classification) (s : Snapshot) {m : Nat}
    {es : List (String × Node)} (h : Rooted fs root R) (hsound : fs.root.Sound)
    (hR : fs.root.at? R = some (.directory m es)) (hplain : Plain (.directory m es)) :
    capture fs root table = .ok s ↔ Opens root table [] true (.directory m es) ∧
      (found table (.directory m es)).mapM Found.record = .ok s.entries := by
  rw [← captureNode_eq_ok (hsound.at? hR).2 hplain, capture_eq_ok]
  obtain ⟨node, hfind⟩ := h.leads
  have hnode := ((Files.find_eq_ok h.standing).1 hfind).2.at? rfl
  obtain rfl : node = .directory m es := Option.some.inj (hnode.symm.trans hR)
  constructor
  · rintro ⟨place, m', es', hfind', hcapture⟩
    obtain ⟨-, heq⟩ := Files.present_unique hfind hfind'
    exact heq ▸ hcapture
  · exact fun hcapture ↦ ⟨R, m, es, hfind, hcapture⟩

/-- **Into an empty directory a snapshot is restored, and captured again as it was, if the paths are
not too long there and no recorded text has a line end to replace.** -/
theorem isStable_empty_iff {xs : List (Found × Content)} (hrecord : IsRecord s table xs)
    (hfs : fs.Sound) (hempty : IsEmptyDirectory fs root)
    (hback : ∀ x ∈ xs, ∀ name ∈ x.1.place, '\\' ∉ name.toList) :
    IsStable fs root table s ↔
      ∀ x ∈ xs, (Path.below root (relative x.1.place)).utf8ByteSize ≤ Files.greatestPath ∧
        ∀ t, x.2 = .text t → HasNarrowEnds t := by
  obtain ⟨F, m, hfind, hread, hwrite, hsearch⟩ := hempty
  have hpath := Files.isPath_of_find hfind
  have hF := ((Files.find_eq_ok hfs.standing).1 hfind).2.at? rfl
  have hrooted : Rooted fs root F :=
    ⟨hfs.standing, ⟨_, hfind⟩, Files.searchable_iff.2 ⟨m, [], hF, hsearch⟩⟩
  rw [IsStable]
  simp only [perform_restore hrooted.standing hrooted.isDirectory, hrecord.entries]
  by_cases hsize : ∀ x ∈ xs, (Path.below root (relative x.1.place)).utf8ByteSize ≤ Files.greatestPath
  · have hnamed : ∀ e ∈ xs.map fun x ↦ (x.1.place, x.2), Named e.1 ∧ e.1 ≠ [] :=
      List.forall_mem_map.2 hrecord.named
    obtain ⟨tree, hperform, hholds, hext, htree⟩ := (Holds.nil hF hwrite hsearch).restore hrooted
      hfs.tree hnamed (List.forall_mem_map.2 hsize) (List.pairwise_map.2 hrecord.apart)
      fun _ h ↦ absurd h List.not_mem_nil
    rw [List.map_map] at hperform
    rw [List.nil_append, List.map_map] at hholds
    obtain ⟨es, hF'⟩ := Node.faceAt?_eq_directory.1
      (hext.directory (Node.faceAt?_eq_directory.2 ⟨[], hF⟩))
    have hcapture := capture_of_rooted table s (hrooted.of_extends hext) htree hF'
      (plain_of_holds hF' hholds hback)
    rw [found_of_holds htree hF' rfl hholds hrecord.sorted hrecord.encoding, hrecord.entries,
      mapM_record_iff renewed (fun _ ↦ rfl) fun _ ↦ rfl] at hcapture
    have hopens : Opens root table [] true (.directory m es) :=
      opens_of_holds hF' hread hsearch hholds hpath (fun x hx ↦ (hrecord.named x hx).1) hsize
    have hagain : ∀ x ∈ xs, (content (relative x.1.place) x.1.encoding (renewed x).bytes = .ok x.2 ↔
        ∀ t, x.2 = .text t → HasNarrowEnds t) := by
      intro x hx
      have hc := hrecord.content x hx
      refine (content_written hc hc).trans (forall₂_congr fun t ht ↦ ?_)
      exact and_iff_left fun bytes hbytes ↦ nomatch ht.symm.trans hbytes
    constructor
    · rintro ⟨fs', hperform', hcaptured⟩
      obtain rfl := (Prod.mk.inj (hperform.symm.trans hperform')).2
      intro x hx
      exact ⟨hsize x hx, (hagain x hx).1 ((hcapture.1 hcaptured).2 x hx)⟩
    · intro h
      exact ⟨_, hperform, hcapture.2 ⟨hopens, fun x hx ↦ (hagain x hx).2 (h x hx).2⟩⟩
  · refine iff_of_false ?_ fun h ↦ hsize fun x hx ↦ (h x hx).1
    rintro ⟨fs', hperform, -⟩
    refine hsize fun x hx ↦ ?_
    obtain ⟨fs₁, fs₂, hstep⟩ := exists_of_perform_forM hperform (List.mem_map.2 ⟨x, hx, rfl⟩)
    exact (isPath_of_restoreEntry (hrecord.named x hx).1 hstep).size

/-! ## Into the directory that was captured -/

/-- Found files at one place are the same. -/
theorem eq_of_place_eq {n : Node} {f g : Found} (hsound : n.Sound) (hf : f ∈ found table n)
    (hg : g ∈ found table n) (h : f.place = g.place) : f = g := by
  obtain ⟨hfat, hfe⟩ := (mem_found hsound).1 hf
  obtain ⟨hgat, hge⟩ := (mem_found hsound).1 hg
  rw [h, hgat] at hfat
  rw [h, hge] at hfe
  obtain ⟨hm, hb, hi⟩ := Node.file.inj (Option.some.inj hfat)
  obtain ⟨place, e, m, b, i⟩ := f
  obtain ⟨place', e', m', b', i'⟩ := g
  rw [Found.mk.injEq]
  exact ⟨h, (Option.some.inj hfe).symm, hm.symm, hb.symm, hi.symm⟩

theorem same_iff {n : Node} {f g : Found} (hsound : n.Sound) (hf : f ∈ found table n)
    (hg : g ∈ found table n) :
    f.Same g ↔ f = g ∨ (f.identity ≠ 0 ∧ f.identity = g.identity) := by
  constructor
  · rintro (hplace | ⟨hne, heq⟩)
    · exact .inl (eq_of_place_eq hsound hf hg hplace)
    · exact .inr ⟨heq ▸ hne, heq⟩
  · rintro (rfl | ⟨hne, heq⟩)
    · exact .inl rfl
    · exact .inr ⟨heq ▸ hne, heq⟩

/-- Two found files that are one are the same one as any third. -/
theorem same_congr {n : Node} {f g k : Found} (hsound : n.Sound) (hf : f ∈ found table n)
    (hg : g ∈ found table n) (hk : k ∈ found table n) (hsame : f.Same g) :
    f.Same k ↔ g.Same k := by
  rw [same_iff hsound hf hg] at hsame
  rw [same_iff hsound hf hk, same_iff hsound hg hk]
  rcases hsame with heq | ⟨hne, heq⟩
  · rw [heq]
  · constructor
    · rintro (hfk | ⟨-, hfk⟩)
      · exact .inr ⟨heq ▸ hne, heq.symm.trans (congrArg Found.identity hfk)⟩
      · exact .inr ⟨heq ▸ hne, heq.symm.trans hfk⟩
    · rintro (hgk | ⟨-, hgk⟩)
      · exact .inr ⟨hne, heq.trans (congrArg Found.identity hgk)⟩
      · exact .inr ⟨hne, heq.trans hgk⟩

/-- The bytes of a file are the same under all its names. -/
theorem InPlace.bytes_eq {f g : Found} (hfs : fs.Sound) (hf : InPlace fs.root root R f)
    (hg : InPlace fs.root root R g) (hsame : f.Same g) : g.bytes = f.bytes := by
  rcases hsame with hplace | ⟨hne, heq⟩
  · have hgat := hg.file
    rw [← hplace, hf.file] at hgat
    exact (Node.file.inj (Option.some.inj hgat)).2.1.symm
  · have hfat := hf.file
    rw [heq] at hfat
    exact (hfs.shared hne hg.file hfat).2

section InPlace

variable {m : Nat} {es : List (String × Node)} {xs : List (Found × Content)}

/-- A tree in which files have other bytes has the same names. -/
theorem Rewritten.plain {tree tree' : Node} {n n' : Node} (h : Rewritten tree R xs tree')
    (hn : tree.at? R = some n) (hn' : tree'.at? R = some n') (hplain : Plain n) : Plain n' := by
  intro q c hc
  have hface : tree'.faceAt? (R ++ q) = some c.face := by
    rw [Node.faceAt?_append hn', Node.faceAt?, hc]
    rfl
  rw [h, Option.map_eq_some_iff] at hface
  obtain ⟨d, hd, -⟩ := hface
  rw [Node.faceAt?_append hn] at hd
  obtain ⟨old, hold, -⟩ := Option.map_eq_some_iff.1 hd
  exact hplain q old hold

/-- **All files are recorded again as they were if what is written last under the names of each is
all that is recorded of it.** -/
theorem content_current_iff
    (hcontent : ∀ x ∈ xs, content (relative x.1.place) x.1.encoding x.1.bytes = .ok x.2)
    (hbytes : ∀ x ∈ xs, ∀ y ∈ xs, x.1.Same y.1 → y.1.bytes = x.1.bytes)
    (hshared : ∀ x ∈ xs, ∀ y ∈ xs, x.1.Same y.1 → ∀ z ∈ xs, (x.1.Same z.1 ↔ y.1.Same z.1)) :
    (∀ x ∈ xs, content (relative x.1.place) x.1.encoding (current R xs x.1).bytes = .ok x.2) ↔
      ∀ before y after, xs = before ++ y :: after → (∀ z ∈ after, ¬ y.1.Same z.1) →
        ∀ t, y.2 = .text t → HasNarrowEnds t ∧
          ∀ x ∈ xs, x.1.Same y.1 → ∀ b, x.2 = .binary b → Text.Utf8.bytes t = b := by
  -- what a file has now is what was written last under one of its names
  have hagain : ∀ x ∈ xs, ∀ before y after, xs = before ++ y :: after → x.1.Same y.1 →
      (∀ z ∈ after, ¬ x.1.Same z.1) →
      (content (relative x.1.place) x.1.encoding (current R xs x.1).bytes = .ok x.2 ↔
        ∀ t, y.2 = .text t → HasNarrowEnds t ∧ ∀ b, x.2 = .binary b → Text.Utf8.bytes t = b) := by
    intro x hx before y after hsplit hsame hafter
    have hy : y ∈ xs := hsplit ▸ by simp
    have hcurrent : (current R xs x.1).bytes = written y.2 := by
      rw [hsplit, bytes_current hsame hafter]
    rw [hcurrent]
    exact content_written (hcontent x hx) (hbytes x hx y hy hsame ▸ hcontent y hy)
  constructor
  · intro h before y after hsplit hafter t ht
    have hy : y ∈ xs := hsplit ▸ by simp
    have hlater : ∀ z ∈ after, z ∈ xs := fun z hz ↦ hsplit ▸ by simp [hz]
    refine ⟨((hagain y hy before y after hsplit (.inl rfl) hafter).1 (h y hy) t ht).1, ?_⟩
    intro x hx hsame
    have hafter' : ∀ z ∈ after, ¬ x.1.Same z.1 := fun z hz ↦
      mt (hshared x hx y hy hsame z (hlater z hz)).1 (hafter z hz)
    exact ((hagain x hx before y after hsplit hsame hafter').1 (h x hx) t ht).2
  · intro h x hx
    obtain ⟨before, y, after, hsplit, hsame, hafter⟩ :=
      exists_last (P := fun z ↦ x.1.Same z.1) ⟨x, hx, .inl rfl⟩
    have hy : y ∈ xs := hsplit ▸ by simp
    have hlater : ∀ z ∈ after, z ∈ xs := fun z hz ↦ hsplit ▸ by simp [hz]
    have hlast := h before y after hsplit fun z hz ↦
      mt (hshared x hx y hy hsame z (hlater z hz)).2 (hafter z hz)
    refine (hagain x hx before y after hsplit hsame hafter).2 fun t ht ↦ ?_
    exact ⟨(hlast t ht).1, (hlast t ht).2 x hx hsame⟩

/-- **Into the captured directory a snapshot is restored, and captured again as it was, if its files
may be written, and what is written to each of them last is all that is recorded of it.** -/
theorem isStable_inPlace_iff (hfs : fs.Sound) (hrooted : Rooted fs root R)
    (hR : fs.root.at? R = some (.directory m es)) (hplain : Plain (.directory m es))
    (hopens : Opens root table [] true (.directory m es))
    (hfound : xs.map Prod.fst = found table (.directory m es)) (hrecord : IsRecord s table xs) :
    IsStable fs root table s ↔
      (∀ x ∈ xs, x.1.MayWrite) ∧
      ∀ before y after, xs = before ++ y :: after → (∀ z ∈ after, ¬ y.1.Same z.1) →
        ∀ t, y.2 = .text t → HasNarrowEnds t ∧
          ∀ x ∈ xs, x.1.Same y.1 → ∀ b, x.2 = .binary b → Text.Utf8.bytes t = b := by
  have hn : (Node.directory m es).Sound := (hfs.tree.at? hR).2
  have hmem : ∀ x ∈ xs, x.1 ∈ found table (.directory m es) :=
    fun x hx ↦ hfound ▸ List.mem_map.2 ⟨x, hx, rfl⟩
  have hplaced : ∀ x ∈ xs, InPlace fs.root root R x.1 :=
    fun x hx ↦ inPlace_of_mem_found hR rfl hn hopens (hmem x hx)
  rw [IsStable]
  simp only [perform_restore hrooted.standing hrooted.isDirectory, hrecord.entries]
  by_cases hwrite : ∀ x ∈ xs, x.1.MayWrite
  · obtain ⟨tree, hperform, hrewritten, hext, htree⟩ :=
      (Rewritten.refl fs.root R).restore hrooted hfs.tree hplaced hwrite
    rw [List.nil_append] at hrewritten
    obtain ⟨es', hR'⟩ := Node.faceAt?_eq_directory.1
      (hext.directory (Node.faceAt?_eq_directory.2 ⟨es, hR⟩))
    have hcapture := capture_of_rooted table s (hrooted.of_extends hext) htree hR'
      (hrewritten.plain hR hR' hplain)
    have hopens' : Opens root table [] true (.directory m es') := hopens.of_outline fun q ↦ by
      rw [← Node.faceAt?_append hR', hrewritten.outline, Node.faceAt?_append hR]
    rw [found_of_rewritten hfs.tree htree hR hR' hrewritten, ← hfound, List.map_map, hrecord.entries,
      mapM_record_iff (current R xs ∘ Prod.fst) (fun _ ↦ rfl) fun _ ↦ rfl] at hcapture
    have hagain := content_current_iff (R := R) hrecord.content
      (fun x hx y hy ↦ (hplaced x hx).bytes_eq hfs (hplaced y hy))
      fun x hx y hy hsame z hz ↦ same_congr hn (hmem x hx) (hmem y hy) (hmem z hz) hsame
    rw [and_iff_right hwrite, ← hagain]
    constructor
    · rintro ⟨fs', hperform', hcaptured⟩
      obtain rfl := (Prod.mk.inj (hperform.symm.trans hperform')).2
      exact (hcapture.1 hcaptured).2
    · exact fun h ↦ ⟨_, hperform, hcapture.2 ⟨hopens', h⟩⟩
  · refine iff_of_false ?_ fun h ↦ hwrite h.1
    rintro ⟨fs', hperform, -⟩
    exact hwrite ((Rewritten.refl fs.root R).mayWrite_of_restore hrooted hfs.tree hplaced hperform)

end InPlace

/-! ## The round trip -/

/-- What a capture records of the files that it found. -/
theorem exists_isRecord {n : Node} (hn : n.Sound) (hdir : n.isDirectory = true)
    (hentries : (found table n).mapM Found.record = .ok s.entries) :
    ∃ xs, xs.map Prod.fst = found table n ∧ IsRecord s table xs := by
  obtain ⟨xs, hfound, heq, hcontent⟩ := exists_contents hentries
  have hmem : ∀ x ∈ xs, x.1 ∈ found table n := fun x hx ↦ hfound ▸ List.mem_map.2 ⟨x, hx, rfl⟩
  refine ⟨xs, hfound, heq, hcontent, fun x hx ↦ ((mem_found hn).1 (hmem x hx)).2, fun x hx ↦ ?_, ?_,
    ?_⟩
  · have hat := ((mem_found hn).1 (hmem x hx)).1
    exact ⟨(hn.at? hat).1, place_ne_nil_of_mem_found hn hdir (hmem x hx)⟩
  · have hsorted : (found table n).Pairwise fun f g ↦ f.place < g.place := sorted_found hn
    rwa [← hfound, List.pairwise_map] at hsorted
  · have hapart : (found table n).Pairwise fun f g ↦ Apart f.place g.place := apart_found hn
    rwa [← hfound, List.pairwise_map] at hapart

/-- The path of a file in its place leads to that file. -/
theorem InPlace.node_eq {f : Found} (hf : InPlace fs.root root R f) (hrooted : Rooted fs root R) :
    fs.node (Path.below root (relative f.place)) = .ok (.file f.mode f.bytes f.identity) := by
  rw [Files.node, Files.present_eq_ok.2 (hf.find_eq hrooted true)]
  rfl

theorem mayWrite_iff {f : Found} {c : Content} (hf : InPlace fs.root root R f)
    (hrooted : Rooted fs root R) : MayWrite fs root ⟨relative f.place, c⟩ ↔ f.MayWrite := by
  rw [MayWrite, hf.node_eq hrooted]
  simp only [Except.ok.injEq, exists_eq_left']
  rfl

theorem sameFile_iff {f g : Found} {c d : Content} (hf : InPlace fs.root root R f)
    (hg : InPlace fs.root root R g) (hfs : fs.Sound) (hrooted : Rooted fs root R) :
    SameFile fs root ⟨relative f.place, c⟩ ⟨relative g.place, d⟩ ↔ f.Same g := by
  rw [SameFile, hf.node_eq hrooted, hg.node_eq hrooted, Found.Same]
  refine or_congr ⟨relative_injective hf.named.parted hg.named.parted, congrArg relative⟩ ?_
  constructor
  · rintro ⟨m, b, i, hi, hfeq, hgeq⟩
    obtain ⟨-, -, rfl⟩ := Node.file.inj (Except.ok.inj hfeq)
    obtain ⟨-, -, heq⟩ := Node.file.inj (Except.ok.inj hgeq)
    exact ⟨heq ▸ hi, heq.symm⟩
  · rintro ⟨hne, heq⟩
    have hfat := hf.file
    rw [heq] at hfat
    obtain ⟨hm, hb⟩ := hfs.shared hne hfat hg.file
    exact ⟨g.mode, g.bytes, g.identity, hne, by rw [hm, hb, heq], rfl⟩

/-- The elements that are the last of their kind in a list become those of the mapped list. -/
theorem forall_last_map_iff {α β : Type} {f : α → β} {xs : List α} {S : β → β → Prop}
    {S' : α → α → Prop} {P : β → Prop} (hS : ∀ x ∈ xs, ∀ y ∈ xs, S (f x) (f y) ↔ S' x y) :
    (∀ before y after, xs.map f = before ++ y :: after → (∀ z ∈ after, ¬ S y z) → P y) ↔
      ∀ before y after, xs = before ++ y :: after → (∀ z ∈ after, ¬ S' y z) → P (f y) := by
  constructor
  · intro h before y after hsplit hafter
    have hy : y ∈ xs := hsplit ▸ by simp
    have hlater : ∀ z ∈ after, z ∈ xs := fun z hz ↦ hsplit ▸ by simp [hz]
    refine h (before.map f) (f y) (after.map f) (by rw [hsplit, List.map_append, List.map_cons]) ?_
    exact List.forall_mem_map.2 fun z hz ↦ mt (hS y hy z (hlater z hz)).1 (hafter z hz)
  · intro h before y after hsplit hafter
    obtain ⟨front, back, hxs, rfl, hback⟩ := List.map_eq_append_iff.1 hsplit
    obtain ⟨y', after', rfl, rfl, rfl⟩ := List.map_eq_cons_iff.1 hback
    have hy : y' ∈ xs := hxs ▸ by simp
    have hlater : ∀ z ∈ after', z ∈ xs := fun z hz ↦ hxs ▸ by simp [hz]
    rw [List.forall_mem_map] at hafter
    exact h front y' after' hxs fun z hz ↦ mt (hS y' hy z (hlater z hz)).2 (hafter z hz)

/-- **When a captured snapshot is restored and captured again as it was.** -/
theorem round_trip_iff (hfs : fs.Sound) (hplain : ∀ n, fs.node root = .ok n → Plain n)
    (hcapture : capture fs root table = .ok s) :
    (∀ fs₂ fresh, fs₂.Sound → IsEmptyDirectory fs₂ fresh →
      (IsStable fs₂ fresh table s ↔ ∀ e ∈ s.entries,
        (Path.below fresh e.path).utf8ByteSize ≤ Files.greatestPath ∧
          ∀ t, e.content = .text t → HasNarrowEnds t)) ∧
    (IsStable fs root table s ↔
      (∀ e ∈ s.entries, MayWrite fs root e) ∧
      ∀ before y after, s.entries = before ++ y :: after →
        (∀ z ∈ after, ¬ SameFile fs root y z) → ∀ t, y.content = .text t → HasNarrowEnds t ∧
          ∀ x ∈ s.entries, SameFile fs root x y → ∀ b, x.content = .binary b →
            Text.Utf8.bytes t = b) := by
  obtain ⟨R, m, es, hfind, hnode⟩ := capture_eq_ok.1 hcapture
  have hR := ((Files.find_eq_ok hfs.standing).1 hfind).2.at? rfl
  have hn : (Node.directory m es).Sound := (hfs.tree.at? hR).2
  have hplain' : Plain (.directory m es) :=
    hplain _ (by rw [Files.node, Files.present_eq_ok.2 hfind]; rfl)
  obtain ⟨hopens, hentries⟩ := (captureNode_eq_ok hn hplain').1 hnode
  obtain ⟨xs, hfound, hrecord⟩ := exists_isRecord hn rfl hentries
  have hmem : ∀ x ∈ xs, x.1 ∈ found table (.directory m es) :=
    fun x hx ↦ hfound ▸ List.mem_map.2 ⟨x, hx, rfl⟩
  have hplaced : ∀ x ∈ xs, InPlace fs.root root R x.1 :=
    fun x hx ↦ inPlace_of_mem_found hR rfl hn hopens (hmem x hx)
  constructor
  · intro fs₂ fresh hfs₂ hempty
    rw [isStable_empty_iff hrecord hfs₂ hempty fun x hx ↦
      hplain' _ _ ((mem_found hn).1 (hmem x hx)).1, hrecord.entries]
    simp only [List.forall_mem_map]
  · by_cases hnil : xs = []
    · -- nothing was captured, so nothing is done
      have hentries' : s.entries = [] := by rw [hrecord.entries, hnil]; rfl
      have hdir : fs.isDirectory root = true := Files.isDirectory_iff.2 ⟨R, m, es, hfind⟩
      rw [hentries']
      refine iff_of_true ⟨fs, ?_, hcapture⟩ ⟨fun _ h ↦ absurd h List.not_mem_nil, ?_⟩
      · rw [perform_restore hfs.standing hdir, hentries']
        rfl
      · intro before y after hsplit
        exact absurd hsplit.symm (by simp)
    · obtain ⟨x, hx⟩ := List.exists_mem_of_ne_nil xs hnil
      have hrooted : Rooted fs root R := ⟨hfs.standing, ⟨_, hfind⟩, (hplaced x hx).searchable⟩
      rw [isStable_inPlace_iff hfs hrooted hR hplain' hopens hfound hrecord, hrecord.entries]
      refine and_congr ?_ ?_
      · rw [List.forall_mem_map]
        exact forall₂_congr fun x hx ↦ (mayWrite_iff (hplaced x hx) hrooted).symm
      · have hsame : ∀ x ∈ xs, ∀ y ∈ xs, (SameFile fs root ⟨relative x.1.place, x.2⟩
            ⟨relative y.1.place, y.2⟩ ↔ x.1.Same y.1) :=
          fun x hx y hy ↦ sameFile_iff (hplaced x hx) (hplaced y hy) hfs hrooted
        rw [forall_last_map_iff hsame]
        refine forall₃_congr fun before y after ↦ forall₄_congr fun hsplit _ t _ ↦ and_congr_right' ?_
        have hy : y ∈ xs := hsplit ▸ by simp
        rw [List.forall_mem_map]
        exact forall₂_congr fun x hx ↦ imp_congr (hsame x hx y hy).symm Iff.rfl

/-- A file system with one text in a directory, and an empty directory beside it. -/
def oneFile (text : String) : Files where
  root := .directory 0o755
    [("out", .directory 0o755 []),
     ("src", .directory 0o755 [("a.c", .file 0o644 (Text.Utf8.bytes text) 0)])]
  here := []

theorem visits_oneFile (text : String) :
    (oneFile text).root.visits =
      [([], (oneFile text).root), (["out"], .directory 0o755 []),
       (["src"], .directory 0o755 [("a.c", .file 0o644 (Text.Utf8.bytes text) 0)]),
       (["src", "a.c"], .file 0o644 (Text.Utf8.bytes text) 0)] := by
  simp [oneFile, Node.visits, Node.descendants, Node.entryDescendants]

theorem sound_oneFile {text : String} (htree : (oneFile text).root.Sound) : (oneFile text).Sound where
  tree := htree
  shared {p q m m' i b b'} hi hp _ := by
    have hvisit := (Node.mem_visits htree).2 hp
    rw [visits_oneFile] at hvisit
    simp only [List.mem_cons, Prod.mk.injEq, oneFile, reduceCtorEq, and_false, Node.file.injEq,
      List.not_mem_nil, or_false, false_or] at hvisit
    exact absurd hvisit.2.2.2 hi
  standing := Option.some_ne_none _

/-- The names in a directory that a path leads to are names in the tree. -/
theorem Plain.of_node (h : Plain fs.root) (hstanding : fs.IsStanding) (n : Node)
    (hn : fs.node root = .ok n) : Plain n := by
  obtain ⟨⟨place, n⟩, hpresent, rfl⟩ := Outcome.map_eq_ok.1 hn
  have hat := ((Files.find_eq_ok hstanding).1 (Files.present_eq_ok.1 hpresent)).2.at? rfl
  intro q c hc name hname
  have hroot : fs.root.at? (place ++ q) = some c := by rw [Node.at?_append, hat]; exact hc
  exact h _ c hroot name (List.mem_append_right _ hname)

theorem plain_oneFile {text : String} (htree : (oneFile text).root.Sound) :
    Plain (oneFile text).root := by
  intro q c hc
  have hvisit := (Node.mem_visits htree).2 hc
  rw [visits_oneFile] at hvisit
  simp only [List.mem_cons, Prod.mk.injEq, List.not_mem_nil, or_false] at hvisit
  rcases hvisit with ⟨rfl, -⟩ | ⟨rfl, -⟩ | ⟨rfl, -⟩ | ⟨rfl, -⟩ <;> decide

theorem isEmptyDirectory_oneFile {text : String} (hfs : (oneFile text).Sound) :
    IsEmptyDirectory (oneFile text) "out" :=
  ⟨["out"], 0o755,
    Files.find_name hfs.standing (by decide) ⟨0o755, rfl, by decide⟩ rfl rfl,
    by decide, by decide, by decide⟩

/-- A text in which one carriage return stands before a line feed is stable everywhere, and one in
which two do is stable nowhere: it is recorded with one of them, and without any the next time. -/
theorem round_trip_iff_of_returns :
    (∃ s, capture (oneFile "\r\n") "src" (.ofList [("c", .text)]) = .ok s ∧
      IsStable (oneFile "\r\n") "out" (.ofList [("c", .text)]) s ∧
      IsStable (oneFile "\r\n") "src" (.ofList [("c", .text)]) s) ∧
    ∃ s, capture (oneFile "\r\r\n") "src" (.ofList [("c", .text)]) = .ok s ∧
      ¬ IsStable (oneFile "\r\r\n") "out" (.ofList [("c", .text)]) s ∧
      ¬ IsStable (oneFile "\r\r\n") "src" (.ofList [("c", .text)]) s := by
  constructor
  · have htree : (oneFile "\r\n").root.Sound := by decide +kernel
    have hfs := sound_oneFile htree
    have hentries : (capture (oneFile "\r\n") "src" (.ofList [("c", .text)])).map Snapshot.entries =
        .ok [⟨"a.c", .text "\n"⟩] := by decide +kernel
    have hwrite : ((oneFile "\r\n").node "src/a.c").map (Node.allows .write) = .ok true := by
      decide +kernel
    obtain ⟨s, hs, heq⟩ := Outcome.map_eq_ok.1 hentries
    obtain ⟨n, hn, hallows⟩ := Outcome.map_eq_ok.1 hwrite
    obtain ⟨hfresh, hback⟩ := round_trip_iff hfs ((plain_oneFile htree).of_node hfs.standing) hs
    have hnarrow : HasNarrowEnds "\n" := by
      rw [HasNarrowEnds, ← Text.toLineFeeds_eq_self_iff]
      decide
    rw [heq] at hfresh hback
    refine ⟨s, hs, (hfresh _ _ hfs (isEmptyDirectory_oneFile hfs)).2 ?_, hback.2 ⟨?_, ?_⟩⟩
    · rintro e (_ | ⟨_, ⟨⟩⟩)
      exact ⟨by decide, fun t ht ↦ Content.text.inj ht ▸ hnarrow⟩
    · rintro e (_ | ⟨_, ⟨⟩⟩)
      exact ⟨n, hn, hallows⟩
    · intro before y after hsplit _ t ht
      have hy : y = ⟨"a.c", .text "\n"⟩ := List.mem_singleton.1 (hsplit ▸ by simp)
      subst hy
      refine ⟨Content.text.inj ht ▸ hnarrow, ?_⟩
      rintro x (_ | ⟨_, ⟨⟩⟩) _ b hb
      cases hb
  · have htree : (oneFile "\r\r\n").root.Sound := by decide +kernel
    have hfs := sound_oneFile htree
    have hentries : (capture (oneFile "\r\r\n") "src" (.ofList [("c", .text)])).map
        Snapshot.entries = .ok [⟨"a.c", .text "\r\n"⟩] := by decide +kernel
    obtain ⟨s, hs, heq⟩ := Outcome.map_eq_ok.1 hentries
    obtain ⟨hfresh, hback⟩ := round_trip_iff hfs ((plain_oneFile htree).of_node hfs.standing) hs
    have hwide : ¬ HasNarrowEnds "\r\n" := by
      rw [HasNarrowEnds, not_not]
      exact ⟨[], [], rfl⟩
    rw [heq] at hfresh hback
    refine ⟨s, hs, fun h ↦ ?_, fun h ↦ ?_⟩
    · have hnarrow := (hfresh _ _ hfs (isEmptyDirectory_oneFile hfs)).1 h _ List.mem_cons_self
      exact hwide (hnarrow.2 _ rfl)
    · have hnarrow := (hback.1 h).2 [] _ [] rfl fun _ h ↦ absurd h List.not_mem_nil
      exact hwide (hnarrow _ rfl).1

end Transfer
end FirmwareLane
