import FirmwareLane.Proofs.Files.Finding
import FirmwareLane.Proofs.Paths
import FirmwareLane.Snapshot.Catalogue
import FirmwareLane.Transfer.Basic

/-!
# Places below a root as paths

A place below a root is recorded as the text of its names, and is found again by the path of the
root and that text.  Both ways lose nothing: the text has the names of the place as its parts, and
the path leads along the names of the root and then along those of the place.
-/

set_option autoImplicit false
namespace FirmwareLane
namespace Transfer

/-- The names of a place are names. -/
def Named (p : Place) : Prop := ∀ name ∈ p, IsName name

/-- The names of a place can be parts of a path. -/
def Parted (p : Place) : Prop := ∀ name ∈ p, IsPart name

variable {p q : Place} {root name : String}

theorem Named.parted (h : Named p) : Parted p := fun n hn ↦ (h n hn).isPart

theorem Parted.of_append_left (h : Parted (p ++ q)) : Parted p :=
  fun n hn ↦ h n (List.mem_append_left q hn)

theorem Parted.of_append_right (h : Parted (p ++ q)) : Parted q :=
  fun n hn ↦ h n (List.mem_append_right p hn)

theorem Parted.last (h : Parted (p ++ [name])) : IsPart name :=
  h.of_append_right name (List.mem_singleton_self name)

theorem Parted.concat (h : Parted p) (hname : IsPart name) : Parted (p ++ [name]) := by
  intro n hn
  rcases List.mem_append.1 hn with hn | hn
  · exact h n hn
  · exact List.mem_singleton.1 hn ▸ hname

theorem Named.of_append_left (h : Named (p ++ q)) : Named p :=
  fun n hn ↦ h n (List.mem_append_left q hn)

theorem Named.of_append_right (h : Named (p ++ q)) : Named q :=
  fun n hn ↦ h n (List.mem_append_right p hn)

theorem Named.last (h : Named (p ++ [name])) : IsName name :=
  h.of_append_right name (List.mem_singleton_self name)

/-! ## The text of a place -/

theorem toList_relative (p : Place) : (relative p).toList = Path.join (p.map String.toList) :=
  Path.toList_intercalate p

theorem relative_concat (hp : p ≠ []) (name : String) :
    relative (p ++ [name]) = relative p ++ "/" ++ name := by
  rw [relative, String.intercalate_append_of_ne_nil hp (by simp), String.intercalate_singleton]
  rfl

theorem names_relative (h : Parted p) : Path.names (relative p).toList = p := by
  rw [toList_relative]
  exact Path.names_join (fun n hn ↦ (h n hn).nonempty) fun n hn ↦ (h n hn).slash

/-- **Different places are recorded differently.** -/
theorem relative_injective (hp : Parted p) (hq : Parted q) (h : relative p = relative q) : p = q := by
  rw [← names_relative hp, h, names_relative hq]

theorem Parted.slash_not_mem (h : Parted p) : ∀ part ∈ p.map String.toList, '/' ∉ part := by
  intro part hpart
  obtain ⟨n, hn, rfl⟩ := List.mem_map.1 hpart
  exact (h n hn).slash

theorem Parted.isProper (h : Parted p) :
    ∀ part ∈ p.map String.toList, Path.isProper part = true := by
  intro part hpart
  obtain ⟨n, hn, rfl⟩ := List.mem_map.1 hpart
  exact Path.isProper_iff.2 ⟨(h n hn).toList_ne_nil, (h n hn).toList_ne_here⟩

theorem head?_relative (h : Parted p) : (relative p).toList.head? ≠ some '/' := by
  rw [toList_relative]
  exact Path.head?_join h.slash_not_mem fun part hpart ↦
    (Path.isProper_iff.1 (h.isProper part hpart)).1

theorem parts_relative (h : Parted p) : Path.parts (relative p).toList = p.map String.toList := by
  rw [toList_relative]
  exact Path.parts_join h.slash_not_mem h.isProper

/-- The components of the text of a place are its names. -/
theorem components_relative (h : Parted p) :
    Path.components (relative p).toList = (p.map String.toList).map .name := by
  rw [toList_relative, Path.components_join h.slash_not_mem h.isProper]
  refine List.map_congr_left fun part hpart ↦ ?_
  obtain ⟨n, hn, rfl⟩ := List.mem_map.1 hpart
  exact if_neg (h n hn).toList_ne_above

/-- The text of a place without a backslash has the normal form. -/
theorem normalize_relative (h : Parted p) (hback : ∀ n ∈ p, '\\' ∉ n.toList) :
    Path.normalize (relative p) = relative p := by
  have hslashed : '\\' ∉ (relative p).toList := by
    intro hmem
    rw [toList_relative] at hmem
    rcases Path.mem_join hmem with heq | ⟨part, hpart, hc⟩
    · exact absurd heq (by decide)
    · obtain ⟨n, hn, rfl⟩ := List.mem_map.1 hpart
      exact hback n hn hc
  rw [Path.normalize, Path.normalChars, Path.map_slashed_of_not_mem hslashed, parts_relative h,
    ← toList_relative, String.ofList_toList]

/-- **A path that a snapshot admits is the text of a place.** -/
theorem exists_place_of_isAdmitted {path : String} (h : Path.IsAdmitted path) :
    ∃ p, p ≠ [] ∧ Parted p ∧ relative p = path := by
  obtain ⟨hnormal, hcontained⟩ := h
  obtain ⟨hne, -, -, habove⟩ := Path.isContained_iff.1 hcontained
  rw [Path.normalize, ← String.toList_inj, String.toList_ofList] at hnormal
  have hparts : ∀ part ∈ Path.parts path.toList, part ∈ Text.splitOn '/' path.toList ∧
      Path.isProper part = true := fun part hpart ↦ List.mem_filter.1 hpart
  have hjoin : Path.join (Path.parts path.toList) = path.toList := by
    conv => lhs; rw [← hnormal, Path.parts_normalChars]
    exact hnormal
  have hmap : ((Path.parts path.toList).map String.ofList).map String.toList =
      Path.parts path.toList := by
    rw [List.map_map]
    exact (List.map_congr_left fun part _ ↦ String.toList_ofList).trans (List.map_id _)
  refine ⟨(Path.parts path.toList).map String.ofList, ?_, ?_, ?_⟩
  · intro hnil
    rw [List.map_eq_nil_iff.1 hnil] at hjoin
    exact hne (String.toList_eq_nil_iff.1 hjoin.symm)
  · intro name hname
    obtain ⟨part, hpart, rfl⟩ := List.mem_map.1 hname
    obtain ⟨hmem, hproper⟩ := hparts part hpart
    rw [Path.isProper_iff] at hproper
    refine ⟨fun heq ↦ hproper.1 (String.ofList_eq_empty_iff.1 heq), ?_, ?_, ?_⟩
    · rw [String.toList_ofList]
      exact Path.not_mem_of_mem_splitOn hmem
    · intro heq
      exact hproper.2 ((String.toList_ofList).symm.trans (congrArg String.toList heq))
    · intro heq
      have hpart : part = Path.above := (String.toList_ofList).symm.trans (congrArg String.toList heq)
      exact habove (hpart ▸ hmem)
  · rw [← String.toList_inj, toList_relative, hmap, hjoin]

theorem belowOnly?_relative (h : Parted p) (root : String) :
    Path.belowOnly? root (relative p) = some (Path.below root (relative p)) :=
  Path.belowOnly?_of_components (components_relative h) root

/-! ## The path of a place below a root -/

theorem names_below (hroot : root ≠ "") (h : Parted p) :
    Path.names (Path.below root (relative p)).toList = Path.names root.toList ++ p := by
  rw [Path.names_below hroot (head?_relative h), names_relative h]

/-- What stands before the last name on the path of a place. -/
def frontOf (root : String) (p : Place) : List Char :=
  if p = [] then Path.stem root else (Path.below root (relative p)).toList

theorem toList_below_concat (hroot : root ≠ "") (h : Parted (p ++ [name])) :
    (Path.below root (relative (p ++ [name]))).toList = frontOf root p ++ '/' :: name.toList := by
  rw [Path.toList_below hroot (head?_relative h), frontOf]
  split
  · next hp =>
    rw [hp, List.nil_append, relative, String.intercalate_singleton]
  · next hp =>
    rw [relative_concat hp, Path.toList_below hroot (head?_relative h.of_append_left),
      String.toList_append, String.toList_append, List.append_assoc, List.append_assoc]
    rfl

theorem below_ne_empty (hroot : root ≠ "") (h : Parted p) : Path.below root (relative p) ≠ "" := by
  intro heq
  have hlist := Path.toList_below hroot (head?_relative h)
  rw [heq] at hlist
  exact absurd hlist.symm (by simp)

theorem getLast?_below (hroot : root ≠ "") (h : Parted (p ++ [name])) :
    (Path.below root (relative (p ++ [name]))).toList.getLast? ≠ some '/' := by
  obtain ⟨c, cs, hcs⟩ := List.exists_cons_of_ne_nil h.last.toList_ne_nil
  rw [toList_below_concat hroot h, List.getLast?_append, List.getLast?_cons, hcs]
  have hlast : (c :: cs).getLastD '/' ≠ '/' := by
    intro heq
    rw [List.getLastD_eq_getLast?, List.getLast?_eq_some_getLast (List.cons_ne_nil c cs),
      Option.getD_some] at heq
    exact h.last.slash (hcs ▸ heq ▸ List.getLast_mem (List.cons_ne_nil c cs))
  rw [Option.some_or]
  exact fun heq ↦ hlast (Option.some.inj heq)

/-- **The path of a place leads along the names of the root and those of the place.** -/
theorem steps_below (hroot : root ≠ "") (h : Parted (p ++ [name])) :
    Files.steps (Path.below root (relative (p ++ [name]))) =
      Path.names root.toList ++ (p ++ [name]) := by
  rw [Files.steps_of_getLast? (getLast?_below hroot h), names_below hroot h]

theorem isAbsolute_below (hroot : root ≠ "") (h : Parted p) :
    Files.isAbsolute (Path.below root (relative p)) = Files.isAbsolute root := by
  rw [Files.isAbsolute, Files.isAbsolute, Path.head?_below hroot (head?_relative h)]

/-! ## The path of the directory above -/

/-- Above a place in a directory below the root is that directory. -/
theorem parent?_below (hroot : root ≠ "") (hp : p ≠ []) (h : Parted (p ++ [name])) :
    Path.parent? (Path.below root (relative (p ++ [name]))) =
      some (Path.below root (relative p)) := by
  obtain ⟨above, last, rfl⟩ := (List.eq_nil_or_concat' p).resolve_left hp
  have hp' := h.of_append_left
  have hlist := toList_below_concat hroot hp'
  have hreverse : (Path.below root (relative (above ++ [last]))).toList.reverse =
      last.toList.reverse ++ '/' :: (frontOf root above).reverse := by
    rw [hlist, List.reverse_append, List.reverse_cons, List.append_assoc, List.singleton_append]
  have hlength : (Path.below root (relative (above ++ [last] ++ [name]))).length ≠ 0 := by
    rw [Ne, String.length_eq_zero_iff]
    exact below_ne_empty hroot h
  have hne : (Path.below root (relative (above ++ [last]))).toList.reverse ≠ [] := by
    rw [hreverse]
    exact List.append_ne_nil_of_right_ne_nil _ (List.cons_ne_nil _ _)
  rw [Path.parent?_of_toList h.last.toList_ne_nil h.last.slash h.last.toList_ne_here
    (toList_below_concat hroot h), frontOf, if_neg hp, Path.trimParts_slash hlength hne, hreverse,
    Path.trimParts_of_name hp'.last.toList_ne_nil hp'.last.slash hp'.last.toList_ne_here,
    ← hreverse, List.reverse_reverse, String.ofList_toList]

theorem toList_below_singleton (hroot : root ≠ "") (h : IsPart name) :
    (Path.below root (relative [name])).toList = Path.stem root ++ '/' :: name.toList := by
  have hparted : Parted ([] ++ [name]) := fun n hn ↦ List.mem_singleton.1 hn ▸ h
  have hlist := toList_below_concat hroot hparted
  rwa [frontOf, if_pos rfl, List.nil_append] at hlist

/-- Above a name in the root is a path that leads where the root leads. -/
theorem parent?_below_root (hroot : root ≠ "") (h : IsPart name) :
    ∃ parent, Path.parent? (Path.below root (relative [name])) = some parent ∧ parent ≠ "" ∧
      parent.toList <+: root.toList ∧ Files.isAbsolute parent = Files.isAbsolute root ∧
      Files.steps parent = Path.names parent.toList ∧
      ∃ dots : List String, (∀ step ∈ dots, step = ".") ∧
        Path.names root.toList = Path.names parent.toList ++ dots := by
  have hlist := toList_below_singleton hroot h
  have hparent := Path.parent?_of_toList h.toList_ne_nil h.slash h.toList_ne_here hlist
  have hfuel : ('/' :: (Path.stem root).reverse).length ≤
      (Path.below root (relative [name])).length := by
    have hname := List.length_pos_iff.2 h.toList_ne_nil
    rw [← String.length_toList, hlist, List.length_append, List.length_cons, List.length_cons,
      List.length_reverse]
    omega
  generalize (Path.below root (relative [name])).length = fuel at hparent hfuel
  obtain ⟨hsuffix, hne⟩ := Path.suffix_trimParts fuel ('/' :: (Path.stem root).reverse)
  obtain ⟨dots, hdots, hnames⟩ := Path.names_trimParts fuel ('/' :: (Path.stem root).reverse)
  have hhead := @Path.eq_of_head?_trimParts _ _ hfuel
  have hreverse : ('/' :: (Path.stem root).reverse).reverse = Path.stem root ++ ['/'] := by
    rw [List.reverse_cons, List.reverse_reverse]
  have hfront := List.reverse_prefix.2 hsuffix
  have hne' := mt List.reverse_eq_nil_iff.1 (hne (List.cons_ne_nil _ _))
  rw [hreverse] at hfront hnames
  have hhere : ((Path.trimParts fuel ('/' :: (Path.stem root).reverse)).reverse.head? == some '/') =
      Files.isAbsolute root := by
    obtain ⟨rest, hrest⟩ := hfront
    rw [Files.isAbsolute, ← Path.head?_stem hroot [], ← hrest, List.head?_append,
      List.head?_eq_some_head hne', Option.some_or]
  refine ⟨_, hparent, ?_, ?_, ?_, ?_, dots, hdots, ?_⟩
  · intro heq
    have := congrArg String.toList heq
    rw [String.toList_ofList] at this
    exact hne' this
  · rw [String.toList_ofList]
    rcases List.prefix_concat_iff.1 hfront with hall | hshort
    · -- all of it ends in a separator, so that is all there is
      have hone := hhead (by rw [← List.getLast?_reverse, hall, List.getLast?_concat])
      rw [hone] at hhere ⊢
      obtain ⟨rest, hrest⟩ := List.head?_eq_some_iff.1 (beq_iff_eq.1 hhere.symm)
      rw [hrest]
      exact ⟨rest, rfl⟩
    · exact hshort.trans (Path.stem_isPrefix root)
  · rw [Files.isAbsolute, String.toList_ofList, hhere]
  · -- no separator is left at the end, unless it is all there is
    by_cases hslash : (Path.trimParts fuel ('/' :: (Path.stem root).reverse)).head? = some '/'
    · rw [hhead hslash]
      decide
    · refine Files.steps_of_getLast? ?_
      rwa [String.toList_ofList, List.getLast?_reverse]
  · rw [String.toList_ofList, ← hnames, Path.names_concat_slash, Path.names_stem]

/-! ## Lengths -/

/-- The path of a place begins with the path of each directory on the way. -/
theorem isPrefix_below (hroot : root ≠ "") (hp : p ≠ []) (h : Parted (p ++ q)) :
    (Path.below root (relative p)).toList <+: (Path.below root (relative (p ++ q))).toList := by
  cases q with
  | nil => rw [List.append_nil]
  | cons name rest =>
    rw [Path.toList_below hroot (head?_relative h),
      Path.toList_below hroot (head?_relative h.of_append_left), relative, relative,
      String.intercalate_append_of_ne_nil hp (List.cons_ne_nil name rest), String.toList_append,
      String.toList_append, List.append_assoc]
    exact ⟨_, List.append_assoc _ _ _⟩

theorem utf8ByteSize_below_le (hroot : root ≠ "") (hp : p ≠ []) (h : Parted (p ++ q)) :
    (Path.below root (relative p)).utf8ByteSize ≤
      (Path.below root (relative (p ++ q))).utf8ByteSize :=
  Path.utf8ByteSize_le_of_isPrefix (isPrefix_below hroot hp h)

theorem length_le_below (hroot : root ≠ "") (h : Parted p) :
    p.length ≤ (Path.below root (relative p)).length := by
  have hjoin : ∀ {p : Place}, Parted p → p.length ≤ (Path.join (p.map String.toList)).length := by
    intro p
    induction p with
    | nil => exact fun _ ↦ Nat.le_refl 0
    | cons name rest ih =>
      intro h
      have hrest := ih fun n hn ↦ h n (List.mem_cons_of_mem _ hn)
      have hname := List.length_pos_iff.2 (h name List.mem_cons_self).toList_ne_nil
      cases rest with
      | nil => exact hname
      | cons next more =>
        have hjoin : (Path.join ((name :: next :: more).map String.toList)).length =
            name.toList.length + ((Path.join ((next :: more).map String.toList)).length + 1) := by
          rw [List.map_cons, Path.join_cons (by simp), List.length_append]
          rfl
        have hcons : (name :: next :: more).length = (next :: more).length + 1 := rfl
        omega
  rw [← String.length_toList, Path.toList_below hroot (head?_relative h), toList_relative,
    List.length_append, List.length_cons]
  have := hjoin h
  omega

end Transfer
end FirmwareLane
