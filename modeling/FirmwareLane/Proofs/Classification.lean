import FirmwareLane.Classification
import FirmwareLane.Proofs.Json.Travelling
import FirmwareLane.Proofs.Text.Utf8

/-!
# Tables of classes

Of the registrations that a table was made of, the last one of an extension decides how the files
with that extension travel (`last_registration_decides`).

A table is sent as the list of its registrations, and the worker registers them once more, in the
order of the extensions.  An extension loses one leading point whenever it is registered, so the
table comes back as it was if no extension that is kept begins with a point, and in no other case
(`eq_reregistered_iff`).  What the worker makes of a file then depends on where the extension stood
that lost its point (`lookup_reregistered`).
-/

set_option autoImplicit false
namespace FirmwareLane

open Json (Wire Within)
open Json.Record (placed)
open Json.Outcome (seq)

/-! ## Lower case -/

namespace Text

theorem toLower_cases (c : Char) :
    c.toLower = c ∨ (0x41 ≤ c.toNat ∧ c.toNat ≤ 0x5a) ∧ c.toLower = Char.ofNat (c.toNat + 32) := by
  by_cases h : c.val ≥ 'A'.val ∧ c.val ≤ 'Z'.val
  · have hleast : 0x41 ≤ c.toNat := UInt32.le_iff_toNat_le.1 h.1
    have hgreatest : c.toNat ≤ 0x5a := UInt32.le_iff_toNat_le.1 h.2
    have hall : ∀ n ≤ 0x5a, 0x41 ≤ n → (Char.ofNat n).toLower = Char.ofNat (n + 32) := by decide
    refine .inr ⟨⟨hleast, hgreatest⟩, ?_⟩
    rw [← hall c.toNat hgreatest hleast, Char.ofNat_toNat]
  · exact .inl (dif_neg h)

theorem toLower_toLower (c : Char) : c.toLower.toLower = c.toLower := by
  rcases toLower_cases c with h | ⟨⟨hleast, hgreatest⟩, h⟩
  · rw [h, h]
  · have hall : ∀ n ≤ 0x5a, 0x41 ≤ n →
        (Char.ofNat (n + 32)).toLower = Char.ofNat (n + 32) := by decide
    rw [h, hall c.toNat hgreatest hleast]

/-- Nothing but the mark itself becomes a mark that stands before the letters. -/
theorem toLower_eq_iff {c mark : Char} (h : mark.toNat < 0x41) : c.toLower = mark ↔ c = mark := by
  constructor
  · intro heq
    rcases toLower_cases c with hlower | ⟨⟨hleast, hgreatest⟩, hlower⟩
    · rw [← heq, hlower]
    · have hall : ∀ n ≤ 0x5a, 0x41 ≤ n → 0x41 ≤ (Char.ofNat (n + 32)).toNat := by decide
      have hmark := hall c.toNat hgreatest hleast
      rw [← hlower, heq] at hmark
      omega
  · rintro rfl
    exact (toLower_cases c).resolve_right fun hupper ↦ by omega

end Text

namespace Classification

/-! ## Extensions as they are kept -/

/-- A text whose letters are small ones. -/
def IsLower (s : String) : Prop := s.toList.map Char.toLower = s.toList

/-- An extension without one leading point. -/
def dropPoint : List Char → List Char
  | '.' :: rest => rest
  | chars => chars

theorem toList_normalExtension (s : String) :
    (normalExtension s).toList = (dropPoint s.toList).map Char.toLower := by
  rw [normalExtension, String.toList_ofList]
  rfl

theorem isLower_normalExtension (s : String) : IsLower (normalExtension s) := by
  rw [IsLower, toList_normalExtension, List.map_map]
  exact List.map_congr_left fun c _ ↦ Text.toLower_toLower c

/-- Two points in front are what it takes for one to be left. -/
theorem head?_normalExtension {s : String} :
    (normalExtension s).toList.head? = some '.' ↔ ['.', '.'] <+: s.toList := by
  have hlower : ∀ chars : List Char,
      (chars.map Char.toLower).head? = some '.' ↔ ∃ rest, chars = '.' :: rest := by
    intro chars
    cases chars with
    | nil => simp
    | cons c rest => simp [Text.toLower_eq_iff (show ('.' : Char).toNat < 0x41 by decide)]
  rw [toList_normalExtension, hlower]
  unfold dropPoint
  split
  · next rest heq =>
    rw [heq, List.cons_prefix_cons, and_iff_right rfl]
    exact exists_congr fun more ↦ eq_comm
  · next hother =>
    constructor
    · rintro ⟨rest, heq⟩
      exact (hother rest heq).elim
    · rintro ⟨rest, heq⟩
      exact (hother _ heq.symm).elim

theorem normalExtension_eq {s : String} (hlower : IsLower s) (hpoint : s.toList.head? ≠ some '.') :
    normalExtension s = s := by
  have hdrop : dropPoint s.toList = s.toList := by
    unfold dropPoint
    split
    · next heq => exact absurd (congrArg List.head? heq) hpoint
    · rfl
  rw [← String.toList_inj, toList_normalExtension, hdrop, hlower]

theorem isLower_point_append {s : String} : IsLower ("." ++ s) ↔ IsLower s := by
  have hpoint : ("." : String).toList.map Char.toLower = ['.'] := by decide
  rw [IsLower, IsLower, String.toList_append, List.map_append, hpoint]
  exact List.append_right_inj _

theorem normalExtension_point_append {s : String} (hlower : IsLower s) :
    normalExtension ("." ++ s) = s := by
  rw [← String.toList_inj, toList_normalExtension, String.toList_append]
  exact hlower

/-! ## Registered extensions -/

variable {registrations : List (String × Encoding)} {table : Classification}

theorem classes_ofList (registrations : List (String × Encoding)) :
    (ofList registrations).classes =
      Keyed.ofList (registrations.map fun r ↦ (normalExtension r.1, r.2)) := by
  suffices ∀ table : Classification,
      (registrations.foldl (fun table r ↦ table.register r.1 r.2) table).classes =
        (registrations.map fun r ↦ (normalExtension r.1, r.2)).foldl
          (fun sorted r ↦ Keyed.insert r.1 r.2 sorted) table.classes from this empty
  induction registrations with
  | nil => exact fun _ ↦ rfl
  | cons r rest ih => exact fun table ↦ ih (table.register r.1 r.2)

theorem lookup_ofList (name : String) :
    (ofList registrations).classes.lookup name =
      (registrations.reverse.map fun r ↦ (normalExtension r.1, r.2)).lookup name := by
  rw [classes_ofList, Keyed.lookup_ofList, List.map_reverse]

/-- The extensions that are kept are those of the registrations, in normal form. -/
theorem mem_names_ofList {name : String} :
    name ∈ (ofList registrations).classes.map (·.1) ↔
      ∃ r ∈ registrations, normalExtension r.1 = name := by
  rw [classes_ofList, Keyed.mem_names_ofList, List.map_map, List.mem_map]
  rfl

/-- A table as it comes about: its extensions stand in their order, each once, in lower case. -/
structure IsTable (table : Classification) : Prop where
  sorted : Keyed.Sorted table.classes
  isLower : ∀ r ∈ table.classes, IsLower r.1

theorem isTable_ofList (registrations : List (String × Encoding)) :
    (ofList registrations).IsTable where
  sorted := by
    rw [classes_ofList]
    exact Keyed.sorted_ofList _
  isLower r hr := by
    obtain ⟨other, -, heq⟩ := mem_names_ofList.1 (List.mem_map_of_mem hr)
    exact heq ▸ isLower_normalExtension other.1

/-! ## Registering once more -/

/-- The table that comes about when the registrations of a table are made once more. -/
def reregistered (table : Classification) : Classification := ofList table.classes

/-- Without a point to lose every extension stays what it is. -/
theorem IsTable.reregistered_eq (h : table.IsTable)
    (hpoint : ∀ r ∈ table.classes, r.1.toList.head? ≠ some '.') : table.reregistered = table := by
  have hsame : ∀ r ∈ table.classes, (normalExtension r.1, r.2) = id r :=
    fun r hr ↦ Prod.ext (normalExtension_eq (h.isLower r hr) (hpoint r hr)) rfl
  have hclasses : table.reregistered.classes = table.classes := by
    rw [reregistered, classes_ofList, List.map_congr_left hsame, List.map_id,
      Keyed.ofList_of_sorted h.sorted]
  cases table
  exact congrArg Classification.mk hclasses

theorem exists_point_append {s : String} (h : s.toList.head? = some '.') : ∃ rest, s = "." ++ rest := by
  cases hchars : s.toList with
  | nil =>
    rw [hchars] at h
    cases h
  | cons c rest =>
    rw [hchars] at h
    refine ⟨String.ofList rest, ?_⟩
    rw [← String.toList_inj, hchars, String.toList_append, String.toList_ofList (l := rest),
      Option.some.inj h]
    rfl

/-- Where an extension with a point in front comes from, if it is there after registering once
more: another one had one point more. -/
theorem IsTable.point_append_mem (h : table.IsTable) (heq : table.reregistered = table)
    {name : String} (hname : name ∈ table.classes.map (·.1))
    (hpoint : name.toList.head? = some '.') : "." ++ name ∈ table.classes.map (·.1) := by
  rw [← heq] at hname
  obtain ⟨r, hr, hnormal⟩ := mem_names_ofList.1 hname
  have hlower := h.isLower r hr
  have hmem : r.1 ∈ table.classes.map (·.1) := List.mem_map_of_mem hr
  by_cases hhead : r.1.toList.head? = some '.'
  · obtain ⟨rest, hrest⟩ := exists_point_append hhead
    rw [hrest, isLower_point_append] at hlower
    rw [hrest, normalExtension_point_append hlower] at hnormal
    rwa [hrest, hnormal] at hmem
  · rw [normalExtension_eq hlower hhead] at hnormal
    exact absurd (hnormal ▸ hpoint) hhead

/-- No extension that is kept begins with a point if the table is the same after registering once
more: else there would be ever longer ones. -/
theorem IsTable.head?_ne_point (h : table.IsTable) (heq : table.reregistered = table) :
    ∀ r ∈ table.classes, r.1.toList.head? ≠ some '.' := by
  intro r hr hpoint
  have hlonger : ∀ n, ∃ name ∈ table.classes.map (·.1),
      name.toList.head? = some '.' ∧ n ≤ name.length := by
    intro n
    induction n with
    | zero => exact ⟨r.1, List.mem_map_of_mem hr, hpoint, Nat.zero_le _⟩
    | succ n ih =>
      obtain ⟨name, hname, hhead, hlength⟩ := ih
      refine ⟨"." ++ name, h.point_append_mem heq hname hhead, by simp, ?_⟩
      rw [String.length_append]
      have hone : ("." : String).length = 1 := rfl
      omega
  obtain ⟨name, hname, -, hlength⟩ :=
    hlonger (((table.classes.map (·.1)).map String.length).max?.getD 0 + 1)
  have hle := List.le_max?_getD_of_mem (k := 0) (List.mem_map_of_mem (f := String.length) hname)
  omega

/-- **A table is the same after registering once more** exactly if no extension that is kept begins
with a point. -/
theorem IsTable.reregistered_eq_iff (h : table.IsTable) :
    table.reregistered = table ↔ ∀ r ∈ table.classes, r.1.toList.head? ≠ some '.' :=
  ⟨h.head?_ne_point, h.reregistered_eq⟩

theorem normalExtension_eq_iff {key name : String} (hkey : IsLower key) (hname : IsLower name)
    (hpoint : name.toList.head? ≠ some '.') :
    normalExtension key = name ↔ key = name ∨ key = "." ++ name := by
  constructor
  · intro heq
    by_cases hhead : key.toList.head? = some '.'
    · obtain ⟨rest, rfl⟩ := exists_point_append hhead
      rw [normalExtension_point_append (isLower_point_append.1 hkey)] at heq
      exact .inr (heq ▸ rfl)
    · exact .inl (normalExtension_eq hkey hhead ▸ heq)
  · rintro (rfl | rfl)
    · exact normalExtension_eq hname hpoint
    · exact normalExtension_point_append hname

/-- **What is found after registering once more**, of the two extensions that may have become one:
the later one. -/
theorem IsTable.lookup_reregistered (h : table.IsTable) {name : String} (hname : IsLower name)
    (hpoint : name.toList.head? ≠ some '.') :
    table.reregistered.classes.lookup name =
      if "." ++ name < name then
        (table.classes.lookup name).or (table.classes.lookup ("." ++ name))
      else (table.classes.lookup ("." ++ name)).or (table.classes.lookup name) := by
  have hdiffers : name ≠ "." ++ name := by
    intro heq
    rw [heq] at hpoint
    exact hpoint (by simp)
  obtain ⟨hsorted, hlower⟩ := h
  rw [reregistered, lookup_ofList]
  generalize table.classes = classes at hsorted hlower ⊢
  induction classes with
  | nil => simp
  | cons first rest ih =>
    obtain ⟨key, encoding⟩ := first
    obtain ⟨hfirst, hrest⟩ := List.pairwise_cons.1 hsorted
    have hkey : IsLower key := hlower _ List.mem_cons_self
    have ih := ih hrest fun r hr ↦ hlower r (List.mem_cons_of_mem _ hr)
    have hnone : rest.lookup key = none := Keyed.lookup_eq_none_of_lt hfirst
    have hafter : ∀ other e, rest.lookup other = some e → key < other :=
      fun other e hother ↦ hfirst _ (Keyed.mem_of_lookup hother)
    rw [List.reverse_cons, List.map_append, List.lookup_append, ih, List.map_singleton,
      Keyed.lookup_cons, List.lookup_nil, Keyed.lookup_cons, Keyed.lookup_cons]
    -- what is registered behind the first extension counts before it
    by_cases hbecomes : normalExtension key = name
    · rw [if_pos hbecomes.symm]
      rcases (normalExtension_eq_iff hkey hname hpoint).1 hbecomes with rfl | rfl
      · rw [hnone, if_pos rfl, if_neg hdiffers.symm]
        split
        · next hlt =>
          have hdotted : rest.lookup ("." ++ key) = none :=
            Option.eq_none_iff_forall_ne_some.2 fun e he ↦
              String.lt_asymm hlt (hafter _ e he)
          rw [hdotted]
          rfl
        · rw [Option.or_none]
      · rw [hnone, if_pos rfl, if_neg hdiffers]
        split
        · rw [Option.or_none]
        · next hlt =>
          have hplain : rest.lookup name = none :=
            Option.eq_none_iff_forall_ne_some.2 fun e he ↦ hlt (hafter _ e he)
          rw [hplain]
          rfl
    · have hother := mt (normalExtension_eq_iff hkey hname hpoint).2 hbecomes
      rw [not_or] at hother
      rw [if_neg (Ne.symm hbecomes), if_neg (Ne.symm hother.1), if_neg (Ne.symm hother.2),
        Option.or_none]

/-! ## Extensions of files -/

/-- What can be the extension of a file: no point and no separator is in it, and no capital. -/
structure IsFileExtension (name : String) : Prop where
  isLower : IsLower name
  point_not_mem : '.' ∉ name.toList
  slash_not_mem : '/' ∉ name.toList

theorem IsFileExtension.head?_ne {name : String} (h : IsFileExtension name) :
    name.toList.head? ≠ some '.' :=
  fun hhead ↦ h.point_not_mem (List.mem_of_mem_head? hhead)

theorem isFileExtension_empty : IsFileExtension "" where
  isLower := rfl
  point_not_mem := by simp
  slash_not_mem := by simp

theorem mem_afterLast {mark c : Char} {s : List Char} (h : c ∈ Path.afterLast mark s) :
    c ≠ mark ∧ c ∈ s := by
  rw [Path.afterLast, List.mem_reverse] at h
  have hne := List.all_eq_true.1 List.all_takeWhile c h
  exact ⟨by simpa using hne, List.mem_reverse.1 (List.takeWhile_subset _ h)⟩

theorem isFileExtension_fileExtension (path : String) :
    IsFileExtension (Path.fileExtension path) := by
  rw [Path.fileExtension]
  split
  · exact isFileExtension_empty
  · next name hname =>
    split
    · have hslash : '/' ∉ name := by
        have hlast := Option.eq_some_of_filter_eq_some hname
        exact Path.not_mem_of_mem_splitOn (List.mem_filter.1 (List.mem_of_getLast? hlast)).1
      have hmark : ∀ mark : Char, mark.toNat < 0x41 →
          mark ∈ ((Path.afterLast '.' name).map Char.toLower) → mark ≠ '.' ∧ mark ∈ name := by
        intro mark hsmall hmem
        obtain ⟨c, hc, hlower⟩ := List.mem_map.1 hmem
        exact (Text.toLower_eq_iff hsmall).1 hlower ▸ mem_afterLast hc
      constructor
      · rw [IsLower, String.toList_ofList, List.map_map]
        exact List.map_congr_left fun c _ ↦ Text.toLower_toLower c
      · rw [String.toList_ofList]
        exact fun h ↦ (hmark '.' (by decide) h).1 rfl
      · rw [String.toList_ofList]
        exact fun h ↦ hslash (hmark '/' (by decide) h).2
    · exact isFileExtension_empty

/-- Every such extension is the one of some file. -/
theorem IsFileExtension.fileExtension_eq {name : String} (h : IsFileExtension name) :
    Path.fileExtension ("a." ++ name) = name := by
  have hlist : ("a." ++ name).toList = 'a' :: '.' :: name.toList := by
    rw [String.toList_append]
    rfl
  have hslash : '/' ∉ 'a' :: '.' :: name.toList := by
    have := h.slash_not_mem
    simpa using this
  have hproper : Path.isProper ('a' :: '.' :: name.toList) = true := by
    simp [Path.isProper, Path.here]
  have hname : Path.fileName? ('a' :: '.' :: name.toList) = some ('a' :: '.' :: name.toList) := by
    rw [Path.fileName?, Path.parts, Path.splitOn_of_not_mem hslash, List.filter_singleton, hproper]
    simp [Path.above]
  have hafter : Path.afterLast '.' ('a' :: '.' :: name.toList) = name.toList := by
    have hall : ∀ c ∈ name.toList.reverse, (c != '.') = true := by
      intro c hc
      simp only [bne_iff_ne]
      exact fun heq ↦ h.point_not_mem (heq ▸ List.mem_reverse.1 hc)
    rw [Path.afterLast, List.reverse_cons, List.reverse_cons, List.append_assoc,
      List.takeWhile_append_of_pos hall]
    simp
  have hlower : name.toList.map Char.toLower = name.toList := h.isLower
  rw [Path.fileExtension, hlist, hname]
  simp [hafter, hlower]

/-! ## Classification -/

theorem encoding?_eq (table : Classification) (path : String) :
    table.encoding? path = table.classes.lookup (Path.fileExtension path) := by
  have h := isFileExtension_fileExtension path
  rw [encoding?, lookup?, normalExtension_eq h.isLower h.head?_ne]

theorem classify_eq_ok_iff {path : String} {encoding : Encoding} :
    table.classify path = .ok encoding ↔ table.encoding? path = some encoding := by
  rw [classify]
  split
  · next e h => rw [h, Except.ok.injEq, Option.some.injEq]
  · next h => simp [h]

theorem classify_eq_error_iff {path : String} {fault : Unclassified} :
    table.classify path = .error fault ↔
      table.encoding? path = none ∧ fault = ⟨path, Path.fileExtension path⟩ := by
  rw [classify]
  split
  · next e h => simp [h]
  · next h => rw [h, Except.error.injEq, and_iff_right rfl, eq_comm]

/-- Tables classify a file alike if they have the same encoding for it. -/
theorem classify_eq_iff {other : Classification} {path : String} :
    table.classify path = other.classify path ↔ table.encoding? path = other.encoding? path := by
  rw [classify, classify]
  constructor
  · intro h
    split at h <;> split at h <;> simp_all
  · intro h
    rw [h]

/-- Tables classify all files alike if the same is found in them under every extension that a file
can have. -/
theorem forall_classify_eq_iff {other : Classification} :
    (∀ path, table.classify path = other.classify path) ↔
      ∀ name, IsFileExtension name → table.classes.lookup name = other.classes.lookup name := by
  simp only [classify_eq_iff, encoding?_eq]
  constructor
  · intro h name hname
    have := h ("a." ++ name)
    rwa [hname.fileExtension_eq] at this
  · exact fun h path ↦ h _ (isFileExtension_fileExtension path)

/-! ## The last registration decides -/

/-- The encoding that the last registration of an extension gives it. -/
def IsLast (registrations : List (String × Encoding)) (name : String) (encoding : Encoding) : Prop :=
  ∃ before spelled after, registrations = before ++ (spelled, encoding) :: after ∧
    normalExtension spelled = name ∧ ∀ later ∈ after, normalExtension later.1 ≠ name

theorem lookup_eq_some_iff_isLast {name : String} {encoding : Encoding} :
    (ofList registrations).classes.lookup name = some encoding ↔
      IsLast registrations name encoding := by
  rw [lookup_ofList, List.lookup_eq_some_iff]
  constructor
  · rintro ⟨found, rest, heq, hother⟩
    -- read from the end, what comes before the one that is found was registered after it
    obtain ⟨after, before, hsplit, rfl, hbefore⟩ := List.map_eq_append_iff.1 heq
    obtain ⟨⟨spelled, e⟩, before, rfl, hr, -⟩ := List.map_eq_cons_iff.1 hbefore
    obtain ⟨rfl, rfl⟩ := Prod.mk.inj hr
    refine ⟨before.reverse, spelled, after.reverse, ?_, rfl, fun later hlater ↦ ?_⟩
    · rw [← List.reverse_reverse registrations, hsplit]
      simp
    · have := hother _ (List.mem_map_of_mem (List.mem_reverse.1 hlater))
      exact fun hname ↦ by simp [hname] at this
  · rintro ⟨before, spelled, after, rfl, rfl, hafter⟩
    refine ⟨after.reverse.map fun r ↦ (normalExtension r.1, r.2),
      before.reverse.map fun r ↦ (normalExtension r.1, r.2), by simp, fun r hr ↦ ?_⟩
    obtain ⟨later, hlater, rfl⟩ := List.mem_map.1 hr
    simpa using (hafter later (List.mem_reverse.1 hlater)).symm

theorem lookup_eq_none_iff {name : String} :
    (ofList registrations).classes.lookup name = none ↔
      ∀ r ∈ registrations, normalExtension r.1 ≠ name := by
  rw [← Option.not_isSome_iff_eq_none, Keyed.isSome_lookup_iff, mem_names_ofList]
  push Not
  rfl

/-- Tables made by registering are equal if the same is found in them. -/
theorem ofList_eq_iff {others : List (String × Encoding)} :
    ofList others = ofList registrations ↔
      ∀ name encoding, IsLast others name encoding ↔ IsLast registrations name encoding := by
  simp only [← lookup_eq_some_iff_isLast]
  constructor
  · exact fun h _ _ ↦ h ▸ Iff.rfl
  · intro h
    have hclasses := (isTable_ofList others).sorted.ext (isTable_ofList registrations).sorted
      fun name ↦ Option.ext (h name)
    exact congrArg mk hclasses

/-- **Registrations of different extensions may change places.** -/
theorem ofList_swap (before after : List (String × Encoding)) {r s : String × Encoding}
    (h : normalExtension r.1 ≠ normalExtension s.1) :
    ofList (before ++ s :: r :: after) = ofList (before ++ r :: s :: after) := by
  refine ofList_eq_iff.2 fun name encoding ↦ ?_
  have hswap : ∀ rest : List (String × Encoding),
      ((normalExtension r.1, r.2) :: (normalExtension s.1, s.2) :: rest).lookup name =
        ((normalExtension s.1, s.2) :: (normalExtension r.1, r.2) :: rest).lookup name := by
    intro rest
    simp only [Keyed.lookup_cons]
    by_cases hr : name = normalExtension r.1
    · rw [if_pos hr, if_neg (hr ▸ h), if_pos hr]
    · rw [if_neg hr, if_neg hr]
  rw [← lookup_eq_some_iff_isLast, ← lookup_eq_some_iff_isLast, lookup_ofList, lookup_ofList]
  simp only [List.reverse_append, List.reverse_cons, List.append_assoc, List.map_append,
    List.lookup_append, List.singleton_append, List.map_cons, hswap]

/-- **The last registration of an extension decides** how the files with that extension travel, and
files whose extension was never registered are refused.  A table is sent with its extensions in the order of their bytes, each of them
once and with what was registered last, so all that the table keeps of its registrations is which of
them are the last. -/
theorem last_registration_decides (registrations : List (String × Encoding)) :
    (∀ path encoding, (ofList registrations).classify path = .ok encoding ↔
      IsLast registrations (Path.fileExtension path) encoding) ∧
    (∀ path fault, (ofList registrations).classify path = .error fault ↔
      (∀ r ∈ registrations, normalExtension r.1 ≠ Path.fileExtension path) ∧
        fault = ⟨path, Path.fileExtension path⟩) ∧
    (∀ path, (ofList registrations).isRegistered path = true ↔
      ∃ r ∈ registrations, normalExtension r.1 = Path.fileExtension path) ∧
    (∃ pairs : List (String × Encoding),
      Wire.encode (ofList registrations) =
          .array (pairs.map fun pair ↦
            .object [("extension", .text pair.1), ("encoding", .text pair.2.name)]) ∧
        (pairs.Pairwise fun a b ↦ Text.Utf8.bytes a.1 < Text.Utf8.bytes b.1) ∧
        (∀ name, name ∈ pairs.map (·.1) ↔ ∃ r ∈ registrations, normalExtension r.1 = name) ∧
        ∀ name encoding, (name, encoding) ∈ pairs ↔ IsLast registrations name encoding) ∧
    ∀ before r s after, registrations = before ++ r :: s :: after →
      normalExtension r.1 ≠ normalExtension s.1 →
        ofList (before ++ s :: r :: after) = ofList registrations := by
  have hsorted := (isTable_ofList registrations).sorted
  refine ⟨fun path encoding ↦ ?_, fun path fault ↦ ?_, fun path ↦ ?_,
    ⟨(ofList registrations).classes, ?_, ?_, fun name ↦ mem_names_ofList, fun name encoding ↦ ?_⟩, ?_⟩
  · rw [classify_eq_ok_iff, encoding?_eq, lookup_eq_some_iff_isLast]
  · rw [classify_eq_error_iff, encoding?_eq, lookup_eq_none_iff]
  · rw [isRegistered, encoding?_eq, Keyed.isSome_lookup_iff, mem_names_ofList]
  · show Json.array ((ofList registrations).toList.map Wire.encode) = _
    rw [toList, List.map_map]
    rfl
  · exact hsorted.imp Text.Utf8.bytes_lt_bytes
  · rw [← lookup_eq_some_iff_isLast, hsorted.lookup_iff]
  · rintro before r s after rfl hne
    exact ofList_swap before after hne

/-- A point in front, capitals and what goes nowhere behind the name make no difference, and a
registration of another extension may come first. -/
theorem last_registration_decides_of_spelled :
    (ofList [(".C", .text), ("bin", .binary), ("c", .binary)]).classify "src.h/a.C/." = .ok .binary ∧
      ofList [("bin", .binary), (".C", .text), ("c", .binary)] =
        ofList [(".C", .text), ("bin", .binary), ("c", .binary)] := by
  have h := last_registration_decides [(".C", .text), ("bin", .binary), ("c", .binary)]
  constructor
  · exact (h.1 _ _).2 ⟨[(".C", .text), ("bin", .binary)], "c", [], rfl, by decide, by simp⟩
  · exact h.2.2.2.2 [] (".C", .text) ("bin", .binary) [("c", .binary)] rfl (by decide)

end Classification

/-! ## Tables on their way -/

theorem Encoding.decode_name (e : Encoding) (origin : Json.Origin) :
    (Wire.decode origin (.text e.name) : Except Json.Fault Encoding) = .ok e := by
  cases e <;> rfl

theorem ExtensionClass.travels (c : ExtensionClass) : Json.Travels c where
  written := by
    obtain ⟨fileExtension, encoding⟩ := c
    refine Json.record_object rfl fun described ↦ ?_
    show seq (Json.Outcome.map mk (placed 0 (.ok fileExtension)))
      (placed 1 (Wire.decode .text (.text encoding.name))) = _
    rw [encoding.decode_name]
    rfl
  kept := by
    obtain ⟨fileExtension, encoding⟩ := c
    have hsorted : (Wire.encode (ExtensionClass.mk fileExtension encoding)).sorted =
        .object [("encoding", .text encoding.name), ("extension", .text fileExtension)] := rfl
    rw [hsorted]
    refine Json.record_object rfl fun described ↦ ?_
    show seq (Json.Outcome.map mk (placed 1 (.ok fileExtension)))
      (placed 0 (Wire.decode .value (.text encoding.name))) = _
    rw [encoding.decode_name]
    rfl

namespace Classification

theorem within_encode (table : Classification) : Within 2 (Wire.encode table) := by
  refine .array fun item hitem ↦ ?_
  obtain ⟨c, -, rfl⟩ := List.mem_map.1 hitem
  refine .object fun member hmember ↦ ?_
  rcases hmember with _ | ⟨_, _ | ⟨_, ⟨⟩⟩⟩ <;> exact .text _

theorem decode_sequence {table : Classification} {origin : Json.Origin} {d : Document}
    (h : Json.sequence (Wire.decode (α := ExtensionClass)) origin d = .ok table.toList) :
    (Wire.decode origin d : Except Json.Fault Classification) = .ok table.reregistered := by
  have hlist : table.toList.map (fun c ↦ (c.fileExtension, c.encoding)) = table.classes := by
    rw [toList, List.map_map]
    exact List.map_id _
  show (Json.sequence (Wire.decode (α := ExtensionClass)) origin d >>= _) = _
  rw [h]
  show Except.ok (ofList (table.toList.map fun c ↦ (c.fileExtension, c.encoding))) = _
  rw [hlist]
  rfl

/-- **What comes back from the text of a table** is the table of its registrations made once more. -/
theorem ofText_print (table : Classification) :
    Wire.ofText (Wire.print table) = .ok table.reregistered := by
  rw [Wire.ofText_print (table.within_encode.mono (by decide))]
  exact decode_sequence (Json.sequence_array fun c _ ↦ c.travels.written)

/-- What comes back from the value of a table in memory is the same. -/
theorem ofJson_encode (table : Classification) :
    Wire.ofJson (Wire.encode table) = .ok table.reregistered :=
  decode_sequence (Json.sequence_sorted fun c _ ↦ c.travels.kept)

/-- An extension that is kept begins with a point if one was registered with two. -/
theorem forall_head?_ne_iff {registrations : List (String × Encoding)} :
    (∀ r ∈ (ofList registrations).classes, r.1.toList.head? ≠ some '.') ↔
      ∀ r ∈ registrations, ¬ ['.', '.'] <+: r.1.toList := by
  have hnames : (∀ r ∈ (ofList registrations).classes, r.1.toList.head? ≠ some '.') ↔
      ∀ name ∈ (ofList registrations).classes.map (·.1), name.toList.head? ≠ some '.' :=
    (List.forall_mem_map (P := fun name : String ↦ name.toList.head? ≠ some '.')).symm
  simp only [hnames, mem_names_ofList, ← head?_normalExtension]
  constructor
  · exact fun h r hr ↦ h _ ⟨r, hr, rfl⟩
  · rintro h _ ⟨r, hr, rfl⟩
    exact h r hr

/-- Where a table and its registrations made once more have the same under an extension. -/
theorem IsTable.lookup_reregistered_eq_iff {table : Classification} (h : table.IsTable)
    {name : String} (hname : IsFileExtension name) :
    table.reregistered.classes.lookup name = table.classes.lookup name ↔
      ∀ encoding, ("." ++ name, encoding) ∈ table.classes →
        ∃ other, (name, other) ∈ table.classes ∧ (other = encoding ∨ "." ++ name < name) := by
  simp only [h.lookup_reregistered hname.isLower hname.head?_ne, ← h.sorted.lookup_iff]
  cases table.classes.lookup ("." ++ name) with
  | none => simp
  | some encoding =>
    cases table.classes.lookup name <;> by_cases hlt : "." ++ name < name <;> simp [hlt, eq_comm]

/-- **A table comes back from its text exactly if no extension was registered with two points in
front.** -/
theorem wire_round_trip_iff (registrations : List (String × Encoding)) :
    ∃ read, Wire.ofText (Wire.print (ofList registrations)) = .ok read ∧
      Wire.ofJson (Wire.encode (ofList registrations)) = .ok read ∧
      (read = ofList registrations ↔ ∀ r ∈ registrations, ¬ ['.', '.'] <+: r.1.toList) ∧
      ((∀ path, read.classify path = (ofList registrations).classify path) ↔
        ∀ name encoding, '.' ∉ name.toList → '/' ∉ name.toList →
          ("." ++ name, encoding) ∈ (ofList registrations).classes →
            ∃ other, (name, other) ∈ (ofList registrations).classes ∧
              (other = encoding ∨ "." ++ name < name)) := by
  have h := isTable_ofList registrations
  refine ⟨_, ofText_print _, ofJson_encode _, h.reregistered_eq_iff.trans forall_head?_ne_iff, ?_⟩
  rw [forall_classify_eq_iff]
  constructor
  · intro hsame name encoding hpoint hslash hmem
    have hlower : IsLower name := isLower_point_append.1 (h.isLower _ hmem)
    have hname : IsFileExtension name := ⟨hlower, hpoint, hslash⟩
    exact (h.lookup_reregistered_eq_iff hname).1 (hsame name hname) encoding hmem
  · intro hother name hname
    exact (h.lookup_reregistered_eq_iff hname).2 fun encoding hmem ↦
      hother name encoding hname.point_not_mem hname.slash_not_mem hmem

/-- One of two points is lost when the table is made, and the other one on the way. -/
example : (ofList [("..c", .text)]).reregistered = ofList [("c", .text)] := by decide

end Classification
end FirmwareLane
