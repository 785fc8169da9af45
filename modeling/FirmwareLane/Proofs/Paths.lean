import FirmwareLane.Path
import Mathlib.Data.List.Basic
import Mathlib.Data.List.TakeWhile

/-!
# Paths below a root

What it takes for a path to stay below the root it is joined to, as a text and by its components.
-/

set_option autoImplicit false
namespace FirmwareLane
namespace Path

theorem hasDrive_iff {path : List Char} :
    hasDrive path = true ↔
      ∃ letter rest, letter.isAlpha = true ∧ path = letter :: ':' :: rest := by
  constructor
  · intro h
    unfold hasDrive at h
    split at h
    · next c rest => exact ⟨c, rest, h, rfl⟩
    · cases h
  · rintro ⟨letter, rest, hletter, rfl⟩
    exact hletter

theorem hasDrive_eq_false {path : List Char} :
    hasDrive path = false ↔ ∀ c rest, path = c :: ':' :: rest → c.isAlpha = false := by
  rw [← Bool.not_eq_true, hasDrive_iff]
  constructor
  · exact fun h c rest hpath ↦ Bool.eq_false_iff.2 fun hc ↦ h ⟨c, rest, hc, hpath⟩
  · rintro h ⟨c, rest, hc, hpath⟩
    exact Bool.false_ne_true ((h c rest hpath).symm.trans hc)

/-- **A path stays below the root** if it names something, is not absolute in either of the two ways
that there are, and has no part that leads upwards. -/
theorem isContained_iff {path : String} :
    isContained path = true ↔ path ≠ "" ∧ path.toList.head? ≠ some '/' ∧
      (∀ c rest, path.toList = c :: ':' :: rest → c.isAlpha = false) ∧
      above ∉ Text.splitOn '/' path.toList := by
  rw [isContained, containedChars, ← hasDrive_eq_false]
  simp only [Bool.and_eq_true, Bool.not_eq_true', bne_iff_ne, List.isEmpty_eq_false_iff,
    List.all_eq_true, and_assoc, Ne, String.toList_eq_nil_iff]
  refine and_congr_right fun _ ↦ and_congr_right fun _ ↦ and_congr_right fun _ ↦ ?_
  exact ⟨fun h hmem ↦ h _ hmem rfl, fun h part hpart heq ↦ h (heq ▸ hpart)⟩

/-! ## Names joined by slashes -/

theorem join_cons {p : List Char} {ps : List (List Char)} (h : ps ≠ []) :
    join (p :: ps) = p ++ '/' :: join ps := by
  cases ps with
  | nil => exact absurd rfl h
  | cons q rest =>
    rw [join]
    exact List.cons_ne_nil q rest

theorem toList_intercalate (names : List String) :
    ("/".intercalate names).toList = join (names.map String.toList) := by
  induction names with
  | nil => rfl
  | cons name rest ih =>
    cases rest with
    | nil => rw [String.intercalate_singleton]; rfl
    | cons next more =>
      have hne : (next :: more).map String.toList ≠ [] := List.cons_ne_nil _ _
      rw [String.intercalate_cons_of_ne_nil (List.cons_ne_nil next more), String.toList_append,
        String.toList_append, ih, List.append_assoc]
      exact (join_cons hne).symm

/-- The names on a path, with those that stand for a way. -/
def names (path : List Char) : List String :=
  ((Text.splitOn '/' path).filter fun piece ↦ !piece.isEmpty).map String.ofList

theorem splitOn_append_cons (c : Char) (s t : List Char) :
    Text.splitOn c (s ++ c :: t) = Text.splitOn c s ++ Text.splitOn c t := by
  induction s with
  | nil => simp [Text.splitOn]
  | cons d rest ih =>
    rw [List.cons_append, Text.splitOn, Text.splitOn]
    by_cases hd : d = c
    · rw [if_pos hd, if_pos hd, ih, List.cons_append]
    · rw [if_neg hd, if_neg hd, ih]
      cases h : Text.splitOn c rest with
      | nil => exact absurd h (Text.splitOn_ne_nil c rest)
      | cons piece more => rfl

theorem names_append (s t : List Char) : names (s ++ '/' :: t) = names s ++ names t := by
  rw [names, splitOn_append_cons, List.filter_append, List.map_append]
  rfl

theorem names_nil : names [] = [] := rfl

theorem names_concat_slash (s : List Char) : names (s ++ ['/']) = names s := by
  rw [names_append, names_nil, List.append_nil]

theorem mem_join_of_mem {parts : List (List Char)} {part : List Char} {c : Char}
    (hpart : part ∈ parts) (hc : c ∈ part) : c ∈ join parts := by
  induction parts with
  | nil => exact absurd hpart List.not_mem_nil
  | cons first rest ih =>
    cases rest with
    | nil => exact List.mem_singleton.1 hpart ▸ hc
    | cons next more =>
      rw [join_cons (List.cons_ne_nil next more), List.mem_append, List.mem_cons]
      rcases List.mem_cons.1 hpart with rfl | hpart
      · exact .inl hc
      · exact .inr (.inr (ih hpart))

/-- A text without a slash is one name. -/
theorem names_of_not_mem {name : String} (hne : name ≠ "") (hslash : '/' ∉ name.toList) :
    names name.toList = [name] := by
  have hempty : name.toList.isEmpty = false := by
    rw [List.isEmpty_eq_false_iff]
    exact fun h ↦ hne (String.toList_eq_nil_iff.1 h)
  rw [names, splitOn_of_not_mem hslash, List.filter_cons_of_pos (by simp [hempty]), List.filter_nil,
    List.map_singleton, String.ofList_toList]

/-- **Joined names are found again on the path.** -/
theorem names_join {place : List String} (hne : ∀ name ∈ place, name ≠ "")
    (hslash : ∀ name ∈ place, '/' ∉ name.toList) :
    names (join (place.map String.toList)) = place := by
  induction place with
  | nil => rfl
  | cons name rest ih =>
    have hname := names_of_not_mem (hne name List.mem_cons_self) (hslash name List.mem_cons_self)
    cases rest with
    | nil => exact hname
    | cons next more =>
      rw [List.map_cons, join_cons (by simp), names_append, hname,
        ih (fun n h ↦ hne n (List.mem_cons_of_mem _ h)) fun n h ↦ hslash n (List.mem_cons_of_mem _ h)]
      rfl

/-! ## Paths below a directory -/

/-- The path of a directory without one slash at the end. -/
def stem (directory : String) : List Char :=
  if directory.toList.getLast? = some '/' then directory.toList.dropLast else directory.toList

theorem stem_isPrefix (directory : String) : stem directory <+: directory.toList := by
  rw [stem]
  split
  · exact List.dropLast_prefix _
  · exact List.prefix_rfl

theorem names_stem (directory : String) : names (stem directory) = names directory.toList := by
  rw [stem]
  split
  · next h =>
    have hsplit := List.dropLast_append_getLast? '/' h
    rw [← names_concat_slash, hsplit]
  · rfl

theorem toList_below {directory path : String} (hdirectory : directory ≠ "")
    (hpath : path.toList.head? ≠ some '/') :
    (below directory path).toList = stem directory ++ '/' :: path.toList := by
  have hempty : directory.isEmpty = false := by
    rw [String.isEmpty_eq_false_iff]
    exact hdirectory
  rw [below, if_neg hpath, stem]
  simp only [hempty, Bool.false_eq_true, or_false]
  split
  · next h =>
    have hsplit := List.dropLast_append_getLast? '/' h
    rw [String.toList_append, ← List.singleton_append, ← List.append_assoc, hsplit]
  · rw [String.toList_append, String.toList_append, List.append_assoc]
    rfl

/-- **A path below a directory leads along the names of both.** -/
theorem names_below {directory path : String} (hdirectory : directory ≠ "")
    (hpath : path.toList.head? ≠ some '/') :
    names (below directory path).toList = names directory.toList ++ names path.toList := by
  rw [toList_below hdirectory hpath, names_append, names_stem]

theorem head?_stem {directory : String} (hdirectory : directory ≠ "") (rest : List Char) :
    (stem directory ++ '/' :: rest).head? = directory.toList.head? := by
  have hne : directory.toList ≠ [] := fun h ↦ hdirectory (String.toList_eq_nil_iff.1 h)
  rw [stem]
  split
  · next h =>
    have hsplit := List.dropLast_append_getLast? '/' h
    rw [← List.singleton_append, ← List.append_assoc, hsplit, List.head?_append,
      List.head?_eq_some_head hne, Option.some_or]
  · rw [List.head?_append, List.head?_eq_some_head hne, Option.some_or]

theorem head?_below {directory path : String} (hdirectory : directory ≠ "")
    (hpath : path.toList.head? ≠ some '/') :
    (below directory path).toList.head? = directory.toList.head? := by
  rw [toList_below hdirectory hpath, head?_stem hdirectory]

theorem utf8ByteSize_le_of_isPrefix {s t : String} (h : s.toList <+: t.toList) :
    s.utf8ByteSize ≤ t.utf8ByteSize := by
  obtain ⟨rest, hrest⟩ := h
  have ht : t = s ++ String.ofList rest := by
    apply String.toList_injective
    rw [String.toList_append, String.toList_ofList, hrest]
  rw [ht, String.utf8ByteSize_append]
  exact Nat.le_add_right _ _

/-! ## The directory above -/

/-- Nothing is trimmed behind a name. -/
theorem trimParts_of_name {name : List Char} (hne : name ≠ []) (hslash : '/' ∉ name)
    (hhere : name ≠ here) (fuel : Nat) (front : List Char) :
    trimParts fuel (name.reverse ++ front) = name.reverse ++ front := by
  obtain ⟨c, rest, hname⟩ := List.exists_cons_of_ne_nil (mt List.reverse_eq_nil_iff.1 hne)
  have hmem : ∀ d ∈ c :: rest, d ≠ '/' := by
    rintro d hd rfl
    exact hslash (List.mem_reverse.1 (hname ▸ hd))
  have hc := hmem c List.mem_cons_self
  rw [hname]
  unfold trimParts
  split
  · rfl
  · next heq => exact nomatch heq
  · next heq => exact heq.symm
  · next heq => exact absurd (List.cons.inj heq).1 hc
  · next heq =>
    -- a point with a slash before it would be a name of its own
    obtain ⟨rfl, hrest⟩ := List.cons.inj heq
    cases rest with
    | nil => exact absurd (List.reverse_eq_iff.1 hname) hhere
    | cons d more =>
      exact absurd (List.cons.inj hrest).1 (hmem d (List.mem_cons_of_mem _ List.mem_cons_self))
  · rfl

theorem trimParts_slash {fuel : Nat} {rest : List Char} (hfuel : fuel ≠ 0) (hrest : rest ≠ []) :
    trimParts fuel ('/' :: rest) = trimParts (fuel - 1) rest := by
  cases fuel with
  | zero => exact absurd rfl hfuel
  | succ fuel =>
    cases rest with
    | nil => exact absurd rfl hrest
    | cons c more =>
      rw [trimParts, Nat.add_sub_cancel]
      exact fun h ↦ nomatch h

/-- What is trimmed leads nowhere. -/
theorem names_trimParts (fuel : Nat) (reversed : List Char) :
    ∃ dots : List String, (∀ step ∈ dots, step = ".") ∧
      names reversed.reverse = names (trimParts fuel reversed).reverse ++ dots := by
  fun_induction trimParts fuel reversed with
  | case1 reversed => exact ⟨[], fun _ h ↦ absurd h List.not_mem_nil, (List.append_nil _).symm⟩
  | case2 => exact ⟨[], fun _ h ↦ absurd h List.not_mem_nil, (List.append_nil _).symm⟩
  | case3 => exact ⟨[], fun _ h ↦ absurd h List.not_mem_nil, (List.append_nil _).symm⟩
  | case4 fuel rest _ ih =>
    obtain ⟨dots, hdots, heq⟩ := ih
    refine ⟨dots, hdots, ?_⟩
    rw [List.reverse_cons, names_concat_slash, heq]
  | case5 fuel rest ih =>
    obtain ⟨dots, hdots, heq⟩ := ih
    refine ⟨dots ++ ["."], fun step hstep ↦ ?_, ?_⟩
    · rcases List.mem_append.1 hstep with h | h
      · exact hdots step h
      · exact List.mem_singleton.1 h
    · rw [← List.append_assoc, ← heq, List.reverse_cons, List.reverse_cons, List.append_assoc,
        List.singleton_append, names_append, names_concat_slash]
      rfl
  | case6 => exact ⟨[], fun _ h ↦ absurd h List.not_mem_nil, (List.append_nil _).symm⟩

/-- What is left is a front of the path, and not nothing. -/
theorem suffix_trimParts (fuel : Nat) (reversed : List Char) :
    trimParts fuel reversed <:+ reversed ∧ (reversed ≠ [] → trimParts fuel reversed ≠ []) := by
  fun_induction trimParts fuel reversed with
  | case1 reversed => exact ⟨List.suffix_rfl, id⟩
  | case2 => exact ⟨List.suffix_rfl, id⟩
  | case3 => exact ⟨List.suffix_rfl, id⟩
  | case4 fuel rest hrest ih =>
    exact ⟨ih.1.trans (List.suffix_cons _ _), fun _ ↦ ih.2 hrest⟩
  | case5 fuel rest ih =>
    exact ⟨ih.1.trans (List.suffix_cons _ _), fun _ ↦ ih.2 (List.cons_ne_nil _ _)⟩
  | case6 => exact ⟨List.suffix_rfl, id⟩

/-- With fuel for one step per character no separator is left at the end, unless it is all there is. -/
theorem eq_of_head?_trimParts {fuel : Nat} {reversed : List Char} (h : reversed.length ≤ fuel)
    (hhead : (trimParts fuel reversed).head? = some '/') : trimParts fuel reversed = ['/'] := by
  fun_induction trimParts fuel reversed with
  | case1 reversed =>
    obtain rfl := List.length_eq_zero_iff.1 (Nat.le_zero.1 h)
    exact nomatch hhead
  | case2 => exact nomatch hhead
  | case3 => exact congrArg (· :: []) (Option.some.inj hhead)
  | case4 fuel rest _ ih => exact ih (Nat.le_of_succ_le_succ h) hhead
  | case5 fuel rest ih => exact ih (Nat.le_of_succ_le_succ h) hhead
  | case6 fuel reversed hempty hsingle hfuel hslash =>
    -- such a text does not begin with a separator, or it would have been cut
    obtain ⟨k, rfl⟩ := Nat.exists_eq_succ_of_ne_zero hfuel
    cases reversed with
    | nil => exact nomatch hhead
    | cons c rest => exact absurd (congrArg (· :: rest) (Option.some.inj hhead)) (hslash k rest rfl)

/-- The directory of a path that ends in a name is what stands before that name. -/
theorem parent?_of_toList {path : String} {front name : List Char} (hne : name ≠ [])
    (hslash : '/' ∉ name) (hhere : name ≠ here) (h : path.toList = front ++ '/' :: name) :
    parent? path =
      some (String.ofList (trimParts path.length ('/' :: front.reverse)).reverse) := by
  have hreverse : path.toList.reverse = name.reverse ++ '/' :: front.reverse := by
    rw [h, List.reverse_append, List.reverse_cons, List.append_assoc, List.singleton_append]
  have htrimmed :
      trimParts path.length path.toList.reverse = name.reverse ++ '/' :: front.reverse := by
    rw [hreverse, trimParts_of_name hne hslash hhere]
  have hfront :
      (name.reverse ++ '/' :: front.reverse).dropWhile (· != '/') = '/' :: front.reverse := by
    rw [List.dropWhile_append_of_pos, List.dropWhile_cons_of_neg (by simp)]
    intro c hc
    exact bne_iff_ne.2 fun hcs ↦ hslash (hcs ▸ List.mem_reverse.1 hc)
  have hproper : ¬ ((name.reverse ++ '/' :: front.reverse).isEmpty = true ∨
      name.reverse ++ '/' :: front.reverse = ['/']) := by
    rintro (hempty | hone)
    · simp at hempty
    · have hlen := congrArg List.length hone
      have hpos := List.length_pos_iff.2 hne
      simp only [List.length_append, List.length_reverse, List.length_cons, List.length_nil] at hlen
      omega
  simp only [parent?, htrimmed]
  rw [if_neg hproper, hfront]

/-- A reversed text that does not end in a separator ends in a name. -/
theorem names_reverse_dropWhile {reversed : List Char} (hne : reversed ≠ [])
    (hhead : reversed.head? ≠ some '/') :
    ∃ last, names reversed.reverse = names (reversed.dropWhile (· != '/')).reverse ++ [last] := by
  have hsplit := List.takeWhile_append_dropWhile (p := (· != '/')) (l := reversed)
  have hslash : '/' ∉ reversed.takeWhile (· != '/') :=
    fun hmem ↦ absurd (List.mem_takeWhile_imp hmem) (by decide)
  have hname : reversed.takeWhile (· != '/') ≠ [] := by
    obtain ⟨c, rest, rfl⟩ := List.exists_cons_of_ne_nil hne
    have hc : (c != '/') = true := bne_iff_ne.2 fun heq ↦ hhead (congrArg some heq)
    rw [List.takeWhile_cons, if_pos hc]
    exact List.cons_ne_nil _ _
  have hlast : names (reversed.takeWhile (· != '/')).reverse =
      [String.ofList (reversed.takeWhile (· != '/')).reverse] := by
    have := @names_of_not_mem (String.ofList (reversed.takeWhile (· != '/')).reverse)
    rw [String.toList_ofList] at this
    refine this (fun heq ↦ hname ?_) (fun hmem ↦ hslash (List.mem_reverse.1 hmem))
    exact List.reverse_eq_nil_iff.1 (String.ofList_eq_empty_iff.1 heq)
  have hdrop := List.head?_dropWhile_not (· != '/') reversed
  refine ⟨String.ofList (reversed.takeWhile (· != '/')).reverse, ?_⟩
  rw [← hlast]
  conv => lhs; rw [← hsplit, List.reverse_append]
  cases hfront : reversed.dropWhile (· != '/') with
  | nil => rfl
  | cons c more =>
    rw [hfront] at hdrop
    obtain rfl : c = '/' := by simpa using hdrop
    rw [List.reverse_cons, names_concat_slash, List.append_assoc, List.singleton_append, names_append]

/-- **The directory of a path is a front of it, and leads along its names but for some at the
end.** -/
theorem names_parent? {path parent : String} (h : parent? path = some parent) :
    parent.toList <+: path.toList ∧
      ∃ rest, rest ≠ [] ∧ names path.toList = names parent.toList ++ rest := by
  rw [parent?] at h
  split at h
  · exact nomatch h
  · next hproper =>
    obtain rfl := Option.some.inj h
    obtain ⟨hempty, hslash⟩ := not_or.1 hproper
    have hlength : path.toList.reverse.length ≤ path.length :=
      Nat.le_of_eq (List.length_reverse.trans String.length_toList)
    obtain ⟨dots, -, hdots⟩ := names_trimParts path.length path.toList.reverse
    obtain ⟨last, hlast⟩ := names_reverse_dropWhile (fun heq ↦ hempty (List.isEmpty_iff.2 heq))
      (mt (eq_of_head?_trimParts hlength) hslash)
    obtain ⟨dots', -, hdots'⟩ := names_trimParts path.length
      ((trimParts path.length path.toList.reverse).dropWhile (· != '/'))
    refine ⟨?_, dots' ++ [last] ++ dots, by simp, ?_⟩
    · have hsuffix := ((suffix_trimParts path.length _).1.trans (List.dropWhile_suffix (· != '/'))).trans
        (suffix_trimParts path.length path.toList.reverse).1
      have hprefix := List.reverse_prefix.2 hsuffix
      rwa [List.reverse_reverse, ← String.toList_ofList (l := List.reverse _)] at hprefix
    · rw [List.reverse_reverse] at hdots
      rw [hdots, hlast, hdots', String.toList_ofList, List.append_assoc, List.append_assoc,
        List.append_assoc]

/-! ## Components

A path is checked in two ways before anything is written under it: as a text in normal form
(`isContained`), and by its components where it is joined to a directory (`belowOnly?`).  The two see
the same: the components of parts that are joined by slashes are those parts (`components_join`), and
those of a path below a directory follow those of the directory (`components_below`).
-/

/-- Names joined by slashes do not begin with one. -/
theorem head?_join {ps : List (List Char)} (h : ∀ p ∈ ps, '/' ∉ p) (hne : ∀ p ∈ ps, p ≠ []) :
    (join ps).head? ≠ some '/' := by
  cases ps with
  | nil => exact nofun
  | cons p rest =>
    obtain ⟨c, cs, rfl⟩ := List.exists_cons_of_ne_nil (hne p List.mem_cons_self)
    have hhead : (join ((c :: cs) :: rest)).head? = some c := by
      cases rest with
      | nil => rfl
      | cons q more => rw [join_cons (List.cons_ne_nil q more)]; rfl
    rw [hhead]
    rintro ⟨⟩
    exact h _ List.mem_cons_self List.mem_cons_self

theorem isProper_iff {part : List Char} : isProper part = true ↔ part ≠ [] ∧ part ≠ here := by
  rw [isProper, Bool.and_eq_true, Bool.not_eq_true', List.isEmpty_eq_false_iff, bne_iff_ne]

section Joined

variable {ps : List (List Char)}

theorem start_join (h : ∀ p ∈ ps, '/' ∉ p) (hp : ∀ p ∈ ps, isProper p = true) :
    start (join ps) = [] := by
  have hhead := head?_join h fun p hmem ↦ (isProper_iff.1 (hp p hmem)).1
  have hfirst : (Text.splitOn '/' (join ps)).head? ≠ some here := by
    cases ps with
    | nil => decide
    | cons p rest =>
      rw [splitOn_join h (List.cons_ne_nil p rest)]
      exact fun heq ↦ (isProper_iff.1 (hp p List.mem_cons_self)).2 (Option.some.inj heq)
  rw [start, if_neg hhead, if_neg hfirst]

/-- **The components of parts that are joined are these parts.** -/
theorem components_join (h : ∀ p ∈ ps, '/' ∉ p) (hp : ∀ p ∈ ps, isProper p = true) :
    components (join ps) = ps.map component := by
  rw [components, start_join h hp, parts_join h hp, List.nil_append]

end Joined

/-! ### Paths below a directory -/

theorem start_append {s : List Char} (hs : s ≠ []) (t : List Char) :
    start (s ++ '/' :: t) = start s := by
  have hhead : (s ++ '/' :: t).head? = s.head? := by
    rw [List.head?_append, List.head?_eq_some_head hs, Option.some_or]
  have hfirst : (Text.splitOn '/' (s ++ '/' :: t)).head? = (Text.splitOn '/' s).head? := by
    have hne := Text.splitOn_ne_nil '/' s
    rw [splitOn_append_cons, List.head?_append, List.head?_eq_some_head hne, Option.some_or]
  rw [start, start, hhead, hfirst]

theorem parts_append (s t : List Char) : parts (s ++ '/' :: t) = parts s ++ parts t := by
  rw [parts, splitOn_append_cons, List.filter_append]
  rfl

theorem parts_concat_slash (s : List Char) : parts (s ++ ['/']) = parts s := by
  rw [parts_append]
  exact List.append_nil (parts s)

theorem components_stem {directory : String} (hdirectory : directory ≠ "") (rest : List Char) :
    components (stem directory ++ '/' :: rest) =
      components directory.toList ++ (parts rest).map component := by
  have hparts : parts (stem directory) = parts directory.toList := by
    rw [stem]
    split
    · next h =>
      have hsplit := List.dropLast_append_getLast? '/' h
      rw [← parts_concat_slash, hsplit]
    · rfl
  have hstart : start (stem directory ++ '/' :: rest) = start directory.toList := by
    rw [stem]
    split
    · next h =>
      have hsplit := List.dropLast_append_getLast? '/' h
      cases hfront : directory.toList.dropLast with
      | nil => rw [← hsplit, hfront]; rfl
      | cons c cs => rw [← hsplit, hfront, start_append (List.cons_ne_nil c cs),
          start_append (List.cons_ne_nil c cs)]
    · exact start_append (fun h ↦ hdirectory (String.toList_eq_nil_iff.1 h)) rest
  rw [components, components, parts_append, List.map_append, hstart, hparts, List.append_assoc]

/-- **The components of a path below a directory follow those of the directory.** -/
theorem components_below {path : String} (hpath : start path.toList = []) (directory : String) :
    components (below directory path).toList =
      components directory.toList ++ components path.toList := by
  have hhead : path.toList.head? ≠ some '/' := by
    intro heq
    rw [start, if_pos heq] at hpath
    exact List.cons_ne_nil _ _ hpath
  have hcomponents : components path.toList = (parts path.toList).map component := by
    rw [components, hpath, List.nil_append]
  by_cases hdirectory : directory = ""
  · rw [below, if_neg hhead, hdirectory]
    rfl
  · rw [toList_below hdirectory hhead, components_stem hdirectory, hcomponents]

theorem belowOnly?_of_components {path : String} {names : List (List Char)}
    (h : components path.toList = names.map .name) (directory : String) :
    belowOnly? directory path = some (below directory path) := by
  rw [belowOnly?, if_pos]
  rw [h, List.all_map]
  exact List.all_eq_true.2 fun _ _ ↦ rfl

end Path
end FirmwareLane
