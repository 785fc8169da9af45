import FirmwareLane.Proofs.Text.Utf8
import FirmwareLane.Proofs.Transfer.Identifying

/-!
# Capturing is complete, exact and ordered

In a directory whose names have no backslash a capture goes well whenever everything that it has to
open can be opened: all directories, and all files with a registered extension (`CanOpen`).  It then
holds one entry for each of these files, in the order of a walk that goes through each directory by
the bytes of the names (`capture_complete`).

That order is not the order of the paths as texts, since a slash in them counts for more than some
characters of names: the files in a directory `a` come before `a.c`, and the path `a.c` before
`a/b.c`.
-/

set_option autoImplicit false
namespace FirmwareLane

/-! ## The extension of the last name -/

namespace Transfer

variable {fs : Files} {root name : String} {table : Classification} {e : Encoding} {R p q : Place}
  {n c : Node} {m : Nat} {es : List (String × Node)}

theorem fileName?_relative (h : Parted (p ++ [name])) :
    Path.fileName? (relative (p ++ [name])).toList = some name.toList := by
  have hname : (name.toList != Path.above) = true := bne_iff_ne.2 h.last.toList_ne_above
  rw [Path.fileName?, parts_relative h, List.map_append, List.map_singleton, List.getLast?_concat,
    Option.filter_some, if_pos hname]

/-- A file is classified by its name, wherever it is. -/
theorem encoding?_relative (h : Parted (p ++ [name])) :
    table.encoding? (relative (p ++ [name])) = table.encoding? name := by
  have hlast : Parted ([] ++ [name]) := h.of_append_right
  have hself : relative ([] ++ [name]) = name := String.intercalate_singleton
  have hname := fileName?_relative hlast
  rw [hself] at hname
  rw [Classification.encoding?, Classification.encoding?, Path.fileExtension, Path.fileExtension,
    fileName?_relative h, hname]

/-- The table has an encoding for the extension of the last name of a place. -/
def IsRegisteredAs (table : Classification) (p : Place) (e : Encoding) : Prop :=
  ∃ way name, p = way ++ [name] ∧ table.encoding? name = some e

theorem isRegisteredAs_iff (h : Parted p) (hne : p ≠ []) :
    IsRegisteredAs table p e ↔ table.encoding? (relative p) = some e := by
  constructor
  · rintro ⟨way, name, rfl, hencoding⟩
    rw [encoding?_relative h, hencoding]
  · intro hencoding
    obtain ⟨way, name, rfl⟩ := (List.eq_nil_or_concat' p).resolve_left hne
    exact ⟨way, name, rfl, by rwa [encoding?_relative h] at hencoding⟩

/-! ## What has to be opened -/

/-- A node at a place below a root can be opened: its path is not too long, it may be read, and the
directories on the way to it may be gone through. -/
structure CanOpen (root : String) (n : Node) (q : Place) (c : Node) : Prop where
  size : (fullPath root q).utf8ByteSize ≤ Files.greatestPath
  readable : c.allows .read = true
  way : ∀ a d, a <+: q → a ≠ q → n.at? a = some d → d.allows .search = true

/-- What a capture has to open: directories, and files with a registered extension. -/
def IsWanted (table : Classification) (q : Place) (c : Node) : Prop :=
  c.isDirectory = true ∨ c.isFile = true ∧ ∃ e, IsRegisteredAs table q e

theorem not_isWanted (hdir : c.isDirectory = false) (hfile : c.isFile = false) :
    ¬ IsWanted table q c := by
  rintro (h | ⟨h, -⟩)
  · exact nomatch hdir.symm.trans h
  · exact nomatch hfile.symm.trans h

theorem canOpen_iff :
    CanOpen root n q c ↔ closed? (fullPath root q) (true && searchableTo q n) c = none := by
  have hway : searchableTo q n = true ↔
      ∀ a d, a <+: q → a ≠ q → n.at? a = some d → d.allows .search = true := by
    rw [searchableTo_iff]
    constructor
    · intro h a d ha hne hd
      rw [← Node.allows_face]
      exact h a ha hne _ (congrArg (Option.map Node.face) hd)
    · intro h a ha hne d hd
      obtain ⟨full, hfull, rfl⟩ := Option.map_eq_some_iff.1 hd
      rw [Node.allows_face]
      exact h a full ha hne hfull
  rw [closed?_eq_none, Bool.true_and, hway]
  exact ⟨fun h ↦ ⟨h.size, h.way, h.readable⟩, fun h ↦ ⟨h.1, h.2.2, h.2.1⟩⟩

/-- **A walk can open what it has to exactly if it can be opened from outside.** -/
theorem opens_iff (h : (Node.directory m es).Sound) :
    Opens root table [] true (.directory m es) ↔
      ∀ q c, (Node.directory m es).at? q = some c → IsWanted table q c →
        CanOpen root (.directory m es) q c := by
  refine forall₃_congr fun q c hc ↦ ?_
  rw [List.nil_append, canOpen_iff]
  cases c with
  | directory k ds => exact ⟨fun hopen _ ↦ hopen, fun hopen ↦ hopen (.inl rfl)⟩
  | file k b i =>
    have hne : q ≠ [] := by
      rintro rfl
      cases hc
    have hfull : fullPath root q = Path.below root (relative q) := by
      rw [fullPath, List.isEmpty_eq_false_iff.2 hne]
      rfl
    have hregistered : IsWanted table q (.file k b i) ↔ (table.encoding? (relative q)).isSome := by
      rw [IsWanted, Option.isSome_iff_exists]
      simp only [isRegisteredAs_iff (Named.parted (h.at? hc).1) hne, Node.isDirectory, Node.isFile,
        Bool.false_eq_true, false_or, true_and]
    rw [hregistered, hfull, blocked?]
    split
    · next hsome => exact ⟨fun hopen _ ↦ hopen, fun hopen ↦ hopen hsome⟩
    · next hnone => exact ⟨fun _ hsome ↦ absurd hsome hnone, fun _ ↦ rfl⟩
  | link target => exact iff_of_true rfl fun hwanted ↦ absurd hwanted (not_isWanted rfl rfl)
  | device d => exact iff_of_true rfl fun hwanted ↦ absurd hwanted (not_isWanted rfl rfl)

/-! ## Paths that are admitted -/

/-- The text of a place stays below the root, unless its first name looks like a drive. -/
theorem isContained_relative (h : Parted (name :: p)) (hdrive : Path.hasDrive name.toList = false) :
    Path.isContained (relative (name :: p)) = true := by
  have hjoin := toList_relative (name :: p)
  have hsplit : Text.splitOn '/' (relative (name :: p)).toList = (name :: p).map String.toList := by
    rw [hjoin]
    exact Path.splitOn_join h.slash_not_mem (List.cons_ne_nil _ _)
  refine Path.isContained_iff.2 ⟨?_, head?_relative h, fun letter rest hpath ↦ ?_, ?_⟩
  · intro hempty
    rw [hempty] at hsplit
    exact (h name List.mem_cons_self).toList_ne_nil (List.cons.inj hsplit).1.symm
  · -- the first piece of such a path is the first name
    have hletter : letter ≠ '/' := by
      rintro rfl
      exact head?_relative h (congrArg List.head? hpath)
    rw [hpath, Text.splitOn, if_neg hletter, Text.splitOn, if_neg (by decide)] at hsplit
    cases hrest : Text.splitOn '/' rest with
    | nil => exact absurd hrest (Text.splitOn_ne_nil '/' rest)
    | cons piece more =>
      rw [hrest] at hsplit
      exact Path.hasDrive_eq_false.1 hdrive letter piece (List.cons.inj hsplit).1.symm
  · rw [hsplit]
    intro hmem
    obtain ⟨other, hother, heq⟩ := List.mem_map.1 hmem
    exact (h other hother).toList_ne_above heq

/-! ## The order of a walk -/

/-- One place comes before another in a walk: where the ways to them part, the bytes of its name
come before those of the other name. -/
def Precedes (p q : Place) : Prop :=
  ∃ way first second rest rest', p = way ++ first :: rest ∧ q = way ++ second :: rest' ∧
    Text.Utf8.bytes first < Text.Utf8.bytes second

/-- A lesser place comes before one that it is not on the way to. -/
theorem precedes_of_lt (h : p < q) (hway : ¬ p <+: q) : Precedes p q := by
  induction p generalizing q with
  | nil => exact absurd List.nil_prefix hway
  | cons first p ih =>
    cases q with
    | nil => exact absurd h (List.not_lt_nil _)
    | cons second q =>
      rcases List.cons_lt_cons_iff.1 h with hless | ⟨rfl, hrest⟩
      · exact ⟨[], first, second, p, q, rfl, rfl, Text.Utf8.bytes_lt_bytes hless⟩
      · have hmore : ¬ p <+: q := fun hprefix ↦ hway (List.cons_prefix_cons.2 ⟨rfl, hprefix⟩)
        obtain ⟨way, a, b, rest, rest', rfl, rfl, hbytes⟩ := ih hrest hmore
        exact ⟨first :: way, a, b, rest, rest', rfl, rfl, hbytes⟩

/-- **A walk finds files in the order of the bytes of their names.** -/
theorem pairwise_precedes_found (h : n.Sound) :
    (found table n).Pairwise fun f g ↦ Precedes f.place g.place :=
  (sorted_found h).imp₂ (fun _ _ hlt hapart ↦ precedes_of_lt hlt hapart.1) (apart_found h)

/-! ## What is captured -/

/-- A plain directory in which no name looks like a drive can be captured when everything that has
to be opened can be opened, and what is registered as text is text. -/
theorem capturable_iff (hsound : (Node.directory m es).Sound) (hplain : Plain (.directory m es))
    (hdrive : ∀ entry ∈ es, Path.hasDrive entry.1.toList = false)
    (htext : ∀ f ∈ found table (.directory m es), f.encoding = .text →
      ∃ t, Text.Utf8.string? f.bytes = some t) :
    Capturable root table (.directory m es) ↔ Opens root table [] true (.directory m es) := by
  refine ⟨Capturable.opens, fun hopens ↦ ⟨hopens, htext, fun f hf ↦ ?_, ?_⟩⟩
  · have hparted := parted_of_mem_found hsound hf
    have hat := ((mem_found hsound).1 hf).1
    rw [Found.path, normalize_found hsound hplain hf]
    obtain ⟨name, rest, hplace⟩ :=
      List.exists_cons_of_ne_nil (place_ne_nil_of_mem_found hsound rfl hf)
    rw [hplace] at hparted hat ⊢
    rw [Node.at?, Option.bind_eq_some_iff] at hat
    obtain ⟨child, hchild, -⟩ := hat
    exact isContained_relative hparted (hdrive (name, child) (Keyed.mem_of_lookup hchild))
  · rw [List.Nodup, List.pairwise_map]
    refine (sorted_found hsound).imp_of_mem fun {f g} hf hg hlt heq ↦ ?_
    have hfback := hplain _ _ ((mem_found hsound).1 hf).1
    have hgback := hplain _ _ ((mem_found hsound).1 hg).1
    have hsame := eq_of_normalize_eq (parted_of_mem_found hsound hf) (parted_of_mem_found hsound hg)
      heq fun name hname ↦ (List.mem_append.1 hname).elim (hfback name) (hgback name)
    exact List.lt_irrefl _ (hsame ▸ hlt)

theorem mem_found_iff (hsound : (Node.directory m es).Sound) {f : Found} :
    f ∈ found table (.directory m es) ↔
      (Node.directory m es).at? f.place = some (.file f.mode f.bytes f.identity) ∧
        IsRegisteredAs table f.place f.encoding := by
  rw [mem_found hsound]
  refine and_congr_right fun hat ↦ ?_
  have hne : f.place ≠ [] := by
    intro hnil
    rw [hnil] at hat
    cases hat
  exact (isRegisteredAs_iff (Named.parted (hsound.at? hat).1) hne).symm

/-- **Capturing is complete, exact and ordered.**  In a directory whose names have no backslash,
where no name at the top looks like a drive and what is registered as text is text, a capture goes
well exactly if all directories and all registered files can be opened.  Its entries are then those
files, each once: at the place where it stands, below directories only, under the names on the way
to it joined by slashes, as the extension of its own name is registered; and they are in the order
of a walk in which the entries of each directory are sorted by the bytes of their names. -/
theorem capture_complete (table : Classification) (hfs : fs.Sound)
    (hfind : fs.find true root = .ok (.present R (.directory m es)))
    (hplain : Plain (.directory m es))
    (hdrive : ∀ entry ∈ es, Path.hasDrive entry.1.toList = false)
    (htext : ∀ q k b i, (Node.directory m es).at? q = some (.file k b i) →
      IsRegisteredAs table q .text → ∃ t, Text.Utf8.string? b = some t) :
    ((∃ s, capture fs root table = .ok s) ↔
        ∀ q c, (Node.directory m es).at? q = some c → IsWanted table q c →
          CanOpen root (.directory m es) q c) ∧
      ∀ s, capture fs root table = .ok s → ∃ files : List Found,
        (∀ f, f ∈ files ↔
          (Node.directory m es).at? f.place = some (.file f.mode f.bytes f.identity) ∧
            IsRegisteredAs table f.place f.encoding) ∧
        files.Pairwise (fun f g ↦ Precedes f.place g.place) ∧
        List.Forall₂ (fun f e ↦ e.path = relative f.place ∧ f.IsCapturedAs e) files s.entries := by
  have hsound : (Node.directory m es).Sound := Files.sound_of_find hfs.tree hfind
  rw [capture_of_find hfind]
  constructor
  · rw [exists_captureNode_iff hsound, capturable_iff hsound hplain hdrive fun f hf he ↦ ?_,
      opens_iff hsound]
    obtain ⟨hat, hregistered⟩ := (mem_found_iff hsound).1 hf
    exact htext _ _ _ _ hat (he ▸ hregistered)
  · intro s hcapture
    refine ⟨found table (.directory m es), fun f ↦ mem_found_iff hsound,
      pairwise_precedes_found hsound, ?_⟩
    exact forall₂_imp_of_mem (forall₂_of_captureNode hcapture) fun f hf e he ↦
      ⟨he.path_eq.trans (normalize_found hsound hplain hf), he⟩

theorem plain_of_visits (hn : n.Sound)
    (h : ∀ visit ∈ n.visits, ∀ name ∈ visit.1, '\\' ∉ name.toList) : Plain n :=
  fun _ _ hat ↦ h _ ((Node.mem_visits hn).2 hat)

theorem texts_of_visits (hn : (Node.directory m es).Sound)
    (h : ∀ visit ∈ (Node.directory m es).visits, table.encoding? (relative visit.1) = some .text →
      visit.2.isFile = true → (Text.Utf8.string? visit.2.bytes).isSome = true)
    (q : Place) (k : Nat) (b : Text.Bytes) (i : Nat)
    (hat : (Node.directory m es).at? q = some (.file k b i))
    (hregistered : IsRegisteredAs table q .text) : ∃ t, Text.Utf8.string? b = some t := by
  have hne : q ≠ [] := by
    rintro rfl
    cases hat
  have hencoding := (isRegisteredAs_iff (Named.parted (hn.at? hat).1) hne).1 hregistered
  exact Option.isSome_iff_exists.1 (h _ ((Node.mem_visits hn).2 hat) hencoding rfl)

/-- A file beside a directory whose name is the beginning of its own, and one that is not to be
read. -/
def branches : List (String × Node) :=
  [("a", .directory 0o755 [("b.c", .file 0o644 [98] 0)]), ("a.c", .file 0o600 [97, 13, 10] 0),
    ("a.o", .file 0 [255] 0)]

/-- The directory of these. -/
def branching : Files where
  root := .directory 0o755 [("in", .directory 0o755 branches)]
  here := []

theorem sound_branching : branching.Sound :=
  Files.sound_of_identities (by decide +kernel) (by decide +kernel) (Option.some_ne_none _)

theorem find_branching :
    branching.find true "in" = .ok (.present ["in"] (.directory 0o755 branches)) :=
  Files.find_name sound_branching.standing (by decide) ⟨0o755, rfl, by decide⟩ rfl rfl

/-- The file in the directory comes first, though its path is the greater one; the one that is not
registered need not be read. -/
theorem capture_complete_of_branching :
    ∃ s, capture branching "in" (.ofList [("c", .text)]) = .ok s ∧
      s.entries = [⟨"a/b.c", .text "b"⟩, ⟨"a.c", .text "a\n"⟩] ∧ "a.c" < "a/b.c" ∧
      CanOpen "in" (.directory 0o755 branches) ["a", "b.c"] (.file 0o644 [98] 0) ∧
      ∃ files : List Found, files.Pairwise (fun f g ↦ Precedes f.place g.place) ∧
        files.map (fun f ↦ relative f.place) = s.entries.map Entry.path := by
  have hrun : (capture branching "in" (.ofList [("c", .text)])).map Snapshot.entries =
      .ok [⟨"a/b.c", .text "b"⟩, ⟨"a.c", .text "a\n"⟩] := by
    decide +kernel
  obtain ⟨s, hs, hentries⟩ := Outcome.map_eq_ok.1 hrun
  have hsound := Files.sound_of_find sound_branching.tree find_branching
  obtain ⟨hopen, hcaptured⟩ := capture_complete (.ofList [("c", .text)]) sound_branching
    find_branching (plain_of_visits hsound (by decide)) (by decide)
    (texts_of_visits hsound (by decide +kernel))
  have hregistered : IsRegisteredAs (.ofList [("c", .text)]) ["a", "b.c"] .text :=
    ⟨["a"], "b.c", rfl, by decide +kernel⟩
  obtain ⟨files, -, hordered, hfiles⟩ := hcaptured s hs
  refine ⟨s, hs, hentries, by decide, hopen.1 ⟨s, hs⟩ _ _ rfl (.inr ⟨rfl, .text, hregistered⟩),
    files, hordered, ?_⟩
  rw [← List.forall₂_eq_eq_eq, List.forall₂_map_left_iff, List.forall₂_map_right_iff]
  exact hfiles.imp fun f e h ↦ h.1.symm

/-- **A capture may fail where the owner may not read a file**, though all names are plain and the
file is text. -/
theorem not_capture_complete_of_unreadable :
    (holding 0).Sound ∧
      (holding 0).find true "in" =
        .ok (.present ["in"] (.directory 0o755 [("a.c", .file 0 [120] 0)])) ∧
      Plain (.directory 0o755 [("a.c", .file 0 [120] 0)]) ∧
      Path.hasDrive "a.c".toList = false ∧ Text.Utf8.string? [120] = some "x" ∧
      capture (holding 0) "in" (.ofList [("c", .text)]) = .error (.files "in/a.c" .denied) := by
  have hfs : (holding 0).Sound :=
    Files.sound_of_identities (by decide +kernel) (by decide +kernel) (Option.some_ne_none _)
  have hfind : (holding 0).find true "in" =
      .ok (.present ["in"] (.directory 0o755 [("a.c", .file 0 [120] 0)])) :=
    Files.find_name hfs.standing (by decide) ⟨0o755, rfl, by decide⟩ rfl rfl
  exact ⟨hfs, hfind, plain_of_visits (Files.sound_of_find hfs.tree hfind) (by decide), by decide,
    by decide +kernel, by decide +kernel⟩

end Transfer
end FirmwareLane
