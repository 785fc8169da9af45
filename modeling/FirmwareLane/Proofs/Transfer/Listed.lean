import FirmwareLane.Proofs.Transfer.Seeing

/-!
# Listed files and the walk

The files of a directory are captured in two ways: a walk finds them, or they are listed.  The two
have little in common.  The walk comes to a file through directories and classifies it as it stands
in the tree; a listed path is followed, through links if there are any, and is classified as it is
spelled, while its normal form is what is followed and recorded.

Where neither makes a difference the two agree (`mem_capture_of_listed`): an entry of a listed file
is one of the walk if the normal form of its path leads to a file through directories only
(`LeadsToFile`), and the table gives the spelling the encoding of the normal form.  The second one
is a matter of backslashes.  A path without any is classified like its normal form, and so is one
that ends in a name with a point (`encoding?_normalize`).
-/

set_option autoImplicit false
namespace FirmwareLane

/-! ## How a path is spelled -/

namespace Path

/-- A path ends, behind the last separator of either kind, in a name with a point. -/
def EndsInExtension (path : String) : Prop :=
  ∃ front name, path.toList = front ++ name ∧ '/' ∉ name ∧ '\\' ∉ name ∧ '.' ∈ name ∧
    name ≠ here ∧ name ≠ above

variable {front name : List Char} {path : String}

theorem exists_splitOn_append (front : List Char) (h : '/' ∉ name) :
    ∃ pieces before, Text.splitOn '/' (front ++ name) = pieces ++ [before ++ name] := by
  induction front with
  | nil => exact ⟨[], [], splitOn_of_not_mem h⟩
  | cons c rest ih =>
    obtain ⟨pieces, before, hpieces⟩ := ih
    rw [List.cons_append, Text.splitOn, hpieces]
    split
    · exact ⟨[] :: pieces, before, rfl⟩
    · cases pieces with
      | nil => exact ⟨[], c :: before, rfl⟩
      | cons piece more => exact ⟨(c :: piece) :: more, before, rfl⟩

/-- What ends in a name with a point has a file name that ends in it. -/
theorem exists_fileName?_append (front : List Char) (hslash : '/' ∉ name) (hpoint : '.' ∈ name)
    (hhere : name ≠ here) (habove : name ≠ above) :
    ∃ before, fileName? (front ++ name) = some (before ++ name) := by
  obtain ⟨pieces, before, hpieces⟩ := exists_splitOn_append front hslash
  have hne : name ≠ [] := List.ne_nil_of_mem hpoint
  have hproper : isProper (before ++ name) = true := by
    refine isProper_iff.2 ⟨List.append_ne_nil_of_right_ne_nil _ hne, fun heq ↦ ?_⟩
    cases before with
    | nil => exact hhere heq
    | cons c rest =>
      have hempty := (List.cons.inj heq).2
      exact hne (List.append_eq_nil_iff.1 hempty).2
  have hup : before ++ name ≠ above := by
    intro heq
    rcases before with _ | ⟨c, _ | ⟨d, rest⟩⟩
    · exact habove heq
    · exact hhere (List.cons.inj heq).2
    · have hempty := (List.cons.inj (List.cons.inj heq).2).2
      exact hne (List.append_eq_nil_iff.1 hempty).2
  refine ⟨before, ?_⟩
  rw [fileName?, parts, hpieces, List.filter_append, List.filter_singleton, hproper, cond_true,
    List.getLast?_concat, Option.filter_some, if_pos (by simpa using hup)]

theorem afterLast_append {mark : Char} (before : List Char) (h : mark ∈ name) :
    afterLast mark (before ++ name) = afterLast mark name := by
  have hstops : (name.reverse.takeWhile (· != mark)).length ≠ name.reverse.length := by
    intro hlength
    have hall := List.takeWhile_eq_self_iff.1
      ((List.takeWhile_prefix (· != mark)).eq_of_length hlength) mark (List.mem_reverse.2 h)
    simp at hall
  rw [afterLast, afterLast, List.reverse_append, List.takeWhile_append, if_neg hstops]

theorem fileExtension_of_fileName? {before : List Char} (hpoint : '.' ∈ name)
    (h : fileName? path.toList = some (before ++ name)) :
    fileExtension path = String.ofList ((afterLast '.' name).map Char.toLower) := by
  have hcontains : (before ++ name).contains '.' = true :=
    List.contains_iff_mem.2 (List.mem_append_right before hpoint)
  rw [fileExtension, h]
  dsimp only
  rw [if_pos hcontains, afterLast_append before hpoint]

theorem eq_below_of_belowOnly? {directory full : String}
    (h : belowOnly? directory path = some full) : below directory path = full := by
  rw [belowOnly?] at h
  split at h
  · exact Option.some.inj h
  · cases h

theorem fileName?_normalize (path : String) :
    fileName? (normalize path).toList = fileName? (path.toList.map slashed) := by
  rw [normalize, String.toList_ofList, fileName?, parts_normalChars]
  rfl

/-- **The extension of a path is that of its normal form**, if the path has no backslash, or ends in
a name with a point. -/
theorem fileExtension_normalize (h : '\\' ∉ path.toList ∨ EndsInExtension path) :
    fileExtension (normalize path) = fileExtension path := by
  rcases h with hplain | ⟨front, name, hpath, hslash, hback, hpoint, hhere, habove⟩
  · rw [fileExtension, fileExtension, fileName?_normalize, map_slashed_of_not_mem hplain]
  · obtain ⟨before, hraw⟩ := exists_fileName?_append front hslash hpoint hhere habove
    obtain ⟨before', hnormal⟩ :=
      exists_fileName?_append (front.map slashed) hslash hpoint hhere habove
    have hslashed : path.toList.map slashed = front.map slashed ++ name := by
      rw [hpath, List.map_append, map_slashed_of_not_mem hback]
    rw [← hslashed, ← fileName?_normalize] at hnormal
    rw [← hpath] at hraw
    rw [fileExtension_of_fileName? hpoint hnormal, fileExtension_of_fileName? hpoint hraw]

end Path

/-- **A path is classified like its normal form**, whatever the table, if it has no backslash, or
ends in a name with a point. -/
theorem Classification.encoding?_normalize (table : Classification) {path : String}
    (h : '\\' ∉ path.toList ∨ Path.EndsInExtension path) :
    table.encoding? path = table.encoding? (Path.normalize path) := by
  rw [encoding?, encoding?, Path.fileExtension_normalize h]

namespace Transfer

variable {fs : Files} {root path : String} {table : Classification} {s t : Snapshot} {e : Entry}
  {n : Node} {paths : List String}

/-! ## What is listed -/

/-- The entry of a listed path: under its normal form, what this leads to, as the spelling is
classified. -/
structure IsListedAs (fs : Files) (root : String) (table : Classification) (path : String)
    (e : Entry) : Prop where
  path_eq : e.path = Path.normalize path
  contained : Path.isContained (Path.normalize path) = true
  content_eq : ∃ encoding b, table.encoding? path = some encoding ∧
    fs.read (Path.below root (Path.normalize path)) = .ok b ∧
    content (Path.normalize path) encoding b = .ok e.content

/-- A listed file is added at the end, as what its path leads to. -/
theorem isListedAs_of_addListed (h : addListed fs root table s path = .ok t) :
    ∃ e, IsListedAs fs root table path e ∧ t.entries = s.entries ++ [e] := by
  rw [addListed, Classification.classify] at h
  cases hencoding : table.encoding? path with
  | none => simp [hencoding, bind, Except.bind] at h
  | some encoding =>
    cases hbelow : Path.belowOnly? root (Path.normalize path) with
    | none => simp [hencoding, hbelow, bind, Except.bind] at h
    | some full =>
      cases hread : fs.read full with
      | error fault => simp [hencoding, hbelow, hread, bind, Except.bind] at h
      | ok b =>
        simp only [hencoding, hbelow, hread, Outcome.ok_bind] at h
        obtain ⟨c, hcontent, hinsert⟩ := add_eq_ok.1 h
        obtain ⟨hcontained, -, hentries⟩ := Snapshot.insert_eq_ok.1 hinsert
        rw [Entry.normalized, Path.normalize_normalize] at hcontained hentries
        rw [← Path.eq_below_of_belowOnly? hbelow] at hread
        exact ⟨⟨Path.normalize path, c⟩,
          ⟨rfl, hcontained, encoding, b, hencoding, hread, hcontent⟩, hentries⟩

/-- All listed files are added, in their order. -/
theorem forall₂_of_foldlM (h : paths.foldlM (addListed fs root table) s = .ok t) :
    ∃ entries, List.Forall₂ (IsListedAs fs root table) paths entries ∧
      t.entries = s.entries ++ entries := by
  induction paths generalizing s with
  | nil =>
    obtain rfl := Except.ok.inj h
    exact ⟨[], .nil, (List.append_nil _).symm⟩
  | cons path rest ih =>
    rw [List.foldlM_cons, Outcome.bind_eq_ok] at h
    obtain ⟨u, hfirst, hrest⟩ := h
    obtain ⟨e, he, hu⟩ := isListedAs_of_addListed hfirst
    obtain ⟨entries, hentries, ht⟩ := ih hrest
    refine ⟨e :: entries, hentries.cons he, ?_⟩
    rw [ht, hu, List.append_assoc, List.singleton_append]

/-- **What listing files gives is one entry for each of them, in their order.** -/
theorem forall₂_of_captureFiles (h : captureFiles fs root table paths = .ok s) :
    List.Forall₂ (IsListedAs fs root table) paths s.entries := by
  rw [captureFiles, Outcome.bind_eq_ok] at h
  obtain ⟨-, -, h⟩ := h
  obtain ⟨entries, hentries, hs⟩ := forall₂_of_foldlM h
  exact hs ▸ hentries

/-! ## What a walk comes to -/

/-- The names of the normal form of a path lead to a file, through directories only. -/
def LeadsToFile (n : Node) (path : String) : Prop :=
  ∃ m b i, n.at? (Path.names (Path.normalize path).toList) = some (.file m b i)

/-- A listed file that a walk comes to, and classifies in the same way, is captured alike. -/
theorem IsListedAs.mem_capture {R : Place} (h : IsListedAs fs root table path e)
    (hbased : Based fs root R n) (hsound : n.Sound) (ht : captureNode root table n = .ok t)
    (hfile : LeadsToFile n path)
    (hspelled : table.encoding? path = table.encoding? (Path.normalize path)) : e ∈ t.entries := by
  obtain ⟨m, b, i, hat⟩ := hfile
  obtain ⟨encoding, read, hencoding, hread, hcontent⟩ := h.content_eq
  obtain ⟨p, -, hp, hpath⟩ :=
    exists_place_of_isAdmitted ⟨Path.normalize_normalize path, h.contained⟩
  rw [← hpath] at hat hspelled hread hcontent
  rw [names_relative hp] at hat
  -- the walk finds the file under the same place and with the same encoding
  have hfound : Found.mk p encoding m b i ∈ found table n :=
    (mem_found hsound).2 ⟨hat, hspelled.symm.trans hencoding⟩
  have hopens := (passes_registeredBelow hsound).1 (passes_of_addAll ht)
  have hstands := standsIn_of_mem_found hbased hsound hopens hfound
  obtain rfl : read = b := Except.ok.inj (hread.symm.trans hstands.read_eq)
  have hlisted := isCapturedAs_of_content (f := ⟨p, encoding, m, read, i⟩) hcontent
  obtain ⟨d, hd, hcaptured⟩ := exists_mem_of_forall₂ (forall₂_of_captureNode ht) hfound
  have hsame : (Entry.mk (relative p) e.content).normalized = e := by
    obtain ⟨_, c⟩ := e
    obtain rfl := h.path_eq
    rw [Entry.normalized, hpath, Path.normalize_normalize]
  rw [hsame] at hlisted
  exact hlisted.congr hcaptured rfl rfl rfl ▸ hd

/-- That it leads to a file is needed: where no name has a backslash, nothing else that is listed is
an entry of the walk. -/
theorem IsListedAs.leadsToFile (h : IsListedAs fs root table path e) (hsound : n.Sound)
    (hplain : Plain n) (ht : captureNode root table n = .ok t) (he : e ∈ t.entries) :
    LeadsToFile n path := by
  obtain ⟨f, hf, hcaptured⟩ := exists_mem_of_forall₂ (forall₂_of_captureNode ht).flip he
  have hat := ((mem_found hsound).1 hf).1
  have hpath : Path.normalize path = relative f.place := by
    rw [← h.path_eq, hcaptured.path_eq, normalize_found hsound hplain hf]
  refine ⟨f.mode, f.bytes, f.identity, ?_⟩
  rw [hpath, names_relative (Named.parted (hsound.at? hat).1), hat]

/-- **Listed files are captured as the walk captures them.**  If the files of a directory can be
captured and so can a list of them, each listed path has an entry, in the order of the list and
under its normal form.  This is an entry of the whole capture, with the same encoding and content,
if the normal form leads to a file below the root, through directories only, and the table gives the
path as it is spelled the encoding of the normal form.  It does, whatever the table, for a path
without a backslash and for one that ends in a name with a point. -/
theorem mem_capture_of_listed (hfs : fs.Sound) (hs : captureFiles fs root table paths = .ok s)
    (ht : capture fs root table = .ok t) :
    ∃ place m es, fs.find true root = .ok (.present place (.directory m es)) ∧
      List.Forall₂ (fun path e ↦ e.path = Path.normalize path ∧
        (LeadsToFile (.directory m es) path →
          table.encoding? path = table.encoding? (Path.normalize path) → e ∈ t.entries))
        paths s.entries ∧
      ∀ path : String, '\\' ∉ path.toList ∨ Path.EndsInExtension path →
        table.encoding? path = table.encoding? (Path.normalize path) := by
  obtain ⟨place, m, es, hfind, hnode⟩ := capture_eq_ok.1 ht
  have hsound : (Node.directory m es).Sound := Files.sound_of_find hfs.tree hfind
  have hbased : Based fs root place (.directory m es) := ⟨hfs.standing, hfind, rfl⟩
  refine ⟨place, m, es, hfind, ?_, fun path ↦ table.encoding?_normalize⟩
  exact (forall₂_of_captureFiles hs).imp fun path e he ↦
    ⟨he.path_eq, fun hfile hspelled ↦ he.mem_capture hbased hsound hnode hfile hspelled⟩

/-- A file, a link to it, and a file in a directory. -/
def aliasedEntries : List (String × Node) :=
  [("a.c", .file 0o644 [120, 13, 10] 0), ("l.c", .link "a.c"),
    ("sub", .directory 0o755 [("b.c", .file 0o644 [121] 0)])]

/-- The directory of these. -/
def aliased : Files where
  root := .directory 0o755 [("in", .directory 0o755 aliasedEntries)]
  here := []

theorem sound_aliased : aliased.Sound :=
  Files.sound_of_identities (by decide +kernel) (by decide +kernel) (Option.some_ne_none _)

/-- Two files are listed in another order and under other spellings than those of the walk. -/
theorem mem_capture_of_listed_spelled :
    ∃ s t, captureFiles aliased "in" (.ofList [("c", .text)]) ["sub\\b.c", ".//a.c"] = .ok s ∧
      capture aliased "in" (.ofList [("c", .text)]) = .ok t ∧
      s.entries = [⟨"sub/b.c", .text "y"⟩, ⟨"a.c", .text "x\n"⟩] ∧
      ∀ e ∈ s.entries, e ∈ t.entries := by
  have hlist : (captureFiles aliased "in" (.ofList [("c", .text)]) ["sub\\b.c", ".//a.c"]).map
      Snapshot.entries = .ok [⟨"sub/b.c", .text "y"⟩, ⟨"a.c", .text "x\n"⟩] := by decide +kernel
  have hwalk : (capture aliased "in" (.ofList [("c", .text)])).map Snapshot.entries =
      .ok [⟨"a.c", .text "x\n"⟩, ⟨"sub/b.c", .text "y"⟩] := by decide +kernel
  obtain ⟨s, hs, hentries⟩ := Outcome.map_eq_ok.1 hlist
  obtain ⟨t, ht, -⟩ := Outcome.map_eq_ok.1 hwalk
  obtain ⟨place, m, es, hfind, hall, hspelled⟩ := mem_capture_of_listed sound_aliased hs ht
  have haliased : aliased.find true "in" =
      .ok (.present ["in"] (.directory 0o755 aliasedEntries)) :=
    Files.find_name sound_aliased.standing (by decide) ⟨0o755, rfl, by decide⟩ rfl rfl
  obtain ⟨-, hnode⟩ := Files.present_unique hfind haliased
  rw [hnode, hentries] at hall
  have hb : LeadsToFile (.directory 0o755 aliasedEntries) "sub\\b.c" := by
    rw [LeadsToFile, show Path.names (Path.normalize "sub\\b.c").toList = ["sub", "b.c"] by
      decide +kernel]
    exact ⟨_, _, _, rfl⟩
  have ha : LeadsToFile (.directory 0o755 aliasedEntries) ".//a.c" := by
    rw [LeadsToFile, show Path.names (Path.normalize ".//a.c").toList = ["a.c"] by decide +kernel]
    exact ⟨_, _, _, rfl⟩
  have hends : Path.EndsInExtension "sub\\b.c" :=
    ⟨"sub\\".toList, "b.c".toList, by decide, by decide, by decide, by decide, by decide, by decide⟩
  obtain ⟨⟨-, hsub⟩, hrest⟩ := List.forall₂_cons.1 hall
  obtain ⟨⟨-, hlast⟩, -⟩ := List.forall₂_cons.1 hrest
  refine ⟨s, t, hs, ht, hentries, ?_⟩
  rw [hentries, List.forall_mem_cons, List.forall_mem_singleton]
  exact ⟨hsub hb (hspelled _ (.inr hends)), hlast ha (hspelled _ (.inl (by decide)))⟩

/-- **Not every entry of a listed file is one of the walk.**  A link is followed where it is listed,
and passed over by the walk.  A file is classified as its path is spelled where it is listed, and by
its own name by the walk: behind the last point of `a.c\.` there is nothing. -/
theorem not_mem_capture_of_listed :
    aliased.Sound ∧
    (∃ s t, captureFiles aliased "in" (.ofList [("c", .text)]) ["l.c"] = .ok s ∧
      capture aliased "in" (.ofList [("c", .text)]) = .ok t ∧
      ⟨"l.c", .text "x\n"⟩ ∈ s.entries ∧ ⟨"l.c", .text "x\n"⟩ ∉ t.entries) ∧
    ∃ s t, captureFiles aliased "in" (.ofList [("", .text), ("c", .binary)]) ["a.c\\."] = .ok s ∧
      capture aliased "in" (.ofList [("", .text), ("c", .binary)]) = .ok t ∧
      ⟨"a.c", .text "x\n"⟩ ∈ s.entries ∧ ⟨"a.c", .text "x\n"⟩ ∉ t.entries := by
  have hlink : (captureFiles aliased "in" (.ofList [("c", .text)]) ["l.c"]).map Snapshot.entries =
      .ok [⟨"l.c", .text "x\n"⟩] := by decide +kernel
  have hwalk : (capture aliased "in" (.ofList [("c", .text)])).map Snapshot.entries =
      .ok [⟨"a.c", .text "x\n"⟩, ⟨"sub/b.c", .text "y"⟩] := by decide +kernel
  have hspelled : (captureFiles aliased "in" (.ofList [("", .text), ("c", .binary)])
      ["a.c\\."]).map Snapshot.entries = .ok [⟨"a.c", .text "x\n"⟩] := by decide +kernel
  have hnamed : (capture aliased "in" (.ofList [("", .text), ("c", .binary)])).map
      Snapshot.entries = .ok [⟨"a.c", .binary [120, 13, 10]⟩, ⟨"sub/b.c", .binary [121]⟩] := by
    decide +kernel
  obtain ⟨s, hs, hsentries⟩ := Outcome.map_eq_ok.1 hlink
  obtain ⟨t, ht, htentries⟩ := Outcome.map_eq_ok.1 hwalk
  obtain ⟨s', hs', hsentries'⟩ := Outcome.map_eq_ok.1 hspelled
  obtain ⟨t', ht', htentries'⟩ := Outcome.map_eq_ok.1 hnamed
  refine ⟨sound_aliased, ⟨s, t, hs, ht, ?_, ?_⟩, s', t', hs', ht', ?_, ?_⟩
  · rw [hsentries]
    decide
  · rw [htentries]
    decide
  · rw [hsentries']
    decide
  · rw [htentries']
    decide

end Transfer
end FirmwareLane
