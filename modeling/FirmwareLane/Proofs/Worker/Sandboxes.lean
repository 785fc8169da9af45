import FirmwareLane.Proofs.Files.Sound
import FirmwareLane.Proofs.Text.Numeral
import FirmwareLane.Proofs.Text.Utf8
import FirmwareLane.Proofs.Transfer.Containment
import FirmwareLane.Worker.Sandbox

/-!
# Naming, making and removing a sandbox

Whatever the identifier of a request is, the name of its sandbox names something in a directory
(`isPart_name`), with a few safe characters (`isSafe_of_mem_name`, `utf8ByteSize_name_le`), and the
number at its end tells it from all others (`number_eq_of_name_eq`).

A sandbox is made as an empty directory under a new name in the directory that the work root leads
to, whenever that can be done (`create_eq_ok_iff`).  From then on its path leads there, whatever
becomes of it and of other directories beside it (`Plot.based`).  Removing it makes everything as it
was (`Plot.perform_removeAll_within`).

`names_contained_distinct` is about the sandboxes of all requests.
-/

set_option autoImplicit false
namespace FirmwareLane
namespace Sandbox

open Action (perform)
open Files (Changeable Furnishes Leads Searchable)
open Text.Numeral (decimal decimalDigits digitChar)
open Transfer (Based relative)

/-! ## The characters of a name -/

/-- The digits of a number are read off its numeral. -/
theorem map_decimal (n : Nat) :
    (decimal n).toList.map (fun c ↦ c.toNat - '0'.toNat) = decimalDigits n := by
  have hdigit : ∀ d < 10, (digitChar d).toNat - '0'.toNat = d := by decide
  rw [decimal, String.toList_ofList, Text.Numeral.write_eq_map, List.map_map]
  exact (List.map_congr_left fun d hd ↦ hdigit d (Text.Numeral.lt_of_mem_decimalDigits hd)).trans
    (List.map_id _)

theorem decimal_injective {k l : Nat} (h : (decimal k).toList = (decimal l).toList) : k = l := by
  rw [← Text.Numeral.foldl_decimalDigits k, ← map_decimal, h, map_decimal,
    Text.Numeral.foldl_decimalDigits]

theorem mem_decimal {n : Nat} {c : Char} (h : c ∈ (decimal n).toList) : c.isDigit = true := by
  rw [decimal, String.toList_ofList, Text.Numeral.write_eq_map] at h
  obtain ⟨d, hd, rfl⟩ := List.mem_map.1 h
  have hall : ∀ d < 10, (digitChar d).isDigit = true := by decide
  exact hall d (Text.Numeral.lt_of_mem_decimalDigits hd)

/-- A number below a power of ten has no more digits than the power says. -/
theorem length_decimal_le {n k : Nat} (hk : k ≠ 0) (h : n < 10 ^ k) :
    (decimal n).toList.length ≤ k := by
  rw [decimal, String.toList_ofList, Text.Numeral.write_eq_map, List.length_map]
  exact Text.Numeral.length_digitsIn_le (by decide) hk h

/-- The characters that are safe in a name: letters and digits of ASCII, hyphens and underscores. -/
def IsSafe (c : Char) : Prop := c.isAlphanum = true ∨ c = '-' ∨ c = '_'

theorem IsSafe.ne {c : Char} (h : IsSafe c) : c ≠ '/' ∧ c ≠ '\x00' := by
  constructor <;> rintro rfl <;> exact absurd h (by simp [IsSafe, Char.isAlphanum])

/-- A safe character takes one byte. -/
theorem IsSafe.utf8Size_eq {c : Char} (h : IsSafe c) : c.utf8Size = 1 := by
  rw [Char.utf8Size_eq_one_iff]
  rcases h with h | rfl | rfl
  · have hkinds : ((c.isUpper || c.isLower) || c.isDigit) = true := h
    simp only [Bool.or_eq_true] at hkinds
    rcases hkinds with (h | h) | h
    · exact UInt32.le_trans (of_decide_eq_true h).2 (by decide)
    · exact UInt32.le_trans (of_decide_eq_true (Bool.and_eq_true_iff.1 h).2) (by decide)
    · exact UInt32.le_trans (of_decide_eq_true (Bool.and_eq_true_iff.1 h).2) (by decide)
  all_goals decide

theorem isSafe_safeChar (c : Char) : IsSafe (safeChar c) := by
  rw [safeChar]
  split
  · next h => simpa [IsSafe, or_assoc] using h
  · exact .inr (.inr rfl)

theorem isSafe_of_isDigit {c : Char} (h : c.isDigit = true) : IsSafe c :=
  .inl (Bool.or_eq_true_iff.2 (.inr h))

theorem isSafe_of_mem_safeIdentifier {requestId : String} {c : Char}
    (h : c ∈ (safeIdentifier requestId).toList) : IsSafe c := by
  simp only [safeIdentifier] at h
  split at h
  · have hall : "request".toList.all Char.isAlphanum = true := by decide
    exact .inl (List.all_eq_true.1 hall c h)
  · rw [String.toList_ofList] at h
    obtain ⟨d, -, rfl⟩ := List.mem_map.1 (List.mem_of_mem_take h)
    exact isSafe_safeChar d

theorem length_safeIdentifier_le (requestId : String) :
    (safeIdentifier requestId).toList.length ≤ greatestIdentifier := by
  simp only [safeIdentifier]
  split
  · decide
  · rw [String.toList_ofList]
    exact List.length_take_le _ _

theorem toList_name (requestId : String) (nanoseconds number : Nat) :
    (name requestId nanoseconds number).toList =
      ((safeIdentifier requestId).toList ++ '-' :: (decimal nanoseconds).toList) ++
        '-' :: (decimal number).toList := by
  simp only [name, String.toList_append, List.append_assoc]
  rfl

theorem isSafe_of_mem_name {requestId : String} {nanoseconds number : Nat} {c : Char}
    (h : c ∈ (name requestId nanoseconds number).toList) : IsSafe c := by
  simp only [toList_name, List.mem_append, List.mem_cons] at h
  rcases h with (h | rfl | h) | rfl | h
  · exact isSafe_of_mem_safeIdentifier h
  · exact .inr (.inl rfl)
  · exact isSafe_of_isDigit (mem_decimal h)
  · exact .inr (.inl rfl)
  · exact isSafe_of_isDigit (mem_decimal h)

theorem dash_mem_name (requestId : String) (nanoseconds number : Nat) :
    '-' ∈ (name requestId nanoseconds number).toList := by
  rw [toList_name]
  exact List.mem_append_right _ List.mem_cons_self

/-! ## What a name is -/

/-- **A sandbox has a name that something in a directory can have**, but for its length. -/
theorem isPart_name (requestId : String) (nanoseconds number : Nat) :
    IsPart (name requestId nanoseconds number) := by
  have hmem := dash_mem_name requestId nanoseconds number
  refine ⟨fun heq ↦ ?_, fun h ↦ (isSafe_of_mem_name h).ne.1 rfl, fun heq ↦ ?_, fun heq ↦ ?_⟩ <;>
    exact absurd (heq ▸ hmem) (by decide)

theorem nul_not_mem_name (requestId : String) (nanoseconds number : Nat) :
    '\x00' ∉ (name requestId nanoseconds number).toList :=
  fun h ↦ (isSafe_of_mem_name h).ne.2 rfl

/-- **A name is short**, if the time fits in 128 bits and the number in 64. -/
theorem utf8ByteSize_name_le (requestId : String) {nanoseconds number : Nat}
    (hnanoseconds : nanoseconds < 2 ^ 128) (hnumber : number < 2 ^ 64) :
    (name requestId nanoseconds number).utf8ByteSize ≤ 125 := by
  have hidentifier := length_safeIdentifier_le requestId
  have htime := @length_decimal_le nanoseconds 39 (by decide) (by omega)
  have hcount := @length_decimal_le number 20 (by decide) (by omega)
  rw [Text.Utf8.utf8ByteSize_of_forall fun c hc ↦ (isSafe_of_mem_name hc).utf8Size_eq, toList_name]
  simp only [List.length_append, List.length_cons]
  rw [greatestIdentifier] at hidentifier
  omega

theorem isName_name (requestId : String) {nanoseconds number : Nat}
    (hnanoseconds : nanoseconds < 2 ^ 128) (hnumber : number < 2 ^ 64) :
    IsName (name requestId nanoseconds number) := by
  have hpart := isPart_name requestId nanoseconds number
  have hsize := utf8ByteSize_name_le requestId hnanoseconds hnumber
  exact ⟨hpart.nonempty, hpart.slash, nul_not_mem_name _ _ _, hpart.notHere, hpart.notAbove,
    Nat.le_trans hsize (by decide)⟩

/-- **Sandboxes with different numbers have different names.** -/
theorem number_eq_of_name_eq {requestId requestId' : String}
    {nanoseconds nanoseconds' number number' : Nat}
    (h : name requestId nanoseconds number = name requestId' nanoseconds' number') :
    number = number' := by
  have hlast : ∀ (front : List Char) (k : Nat),
      (front ++ '-' :: (decimal k).toList).reverse.takeWhile (· != '-') =
        (decimal k).toList.reverse := by
    intro front k
    have hdigits : ∀ c ∈ (decimal k).toList.reverse, (c != '-') = true := by
      intro c hc
      refine bne_iff_ne.2 ?_
      rintro rfl
      exact absurd (mem_decimal (List.mem_reverse.1 hc)) (by decide)
    rw [List.reverse_append, List.reverse_cons, List.append_assoc, List.singleton_append,
      List.takeWhile_append_of_pos hdigits, List.takeWhile_cons_of_neg (by decide), List.append_nil]
  have heq := congrArg (fun s : String ↦ s.toList.reverse.takeWhile (· != '-')) h
  simp only [toList_name, hlast] at heq
  exact decimal_injective (List.reverse_injective heq)

variable {fs made : Files} {workRoot root name : String} {W : Place} {c n : Node}

/-! ## The path of a sandbox -/

theorem relative_singleton (name : String) : relative [name] = name := String.intercalate_singleton

section Path

variable (h : IsPart name)

include h

theorem parted_singleton : Transfer.Parted ([] ++ [name]) := fun _ hn ↦ List.mem_singleton.1 hn ▸ h

theorem below_empty : Path.below "" name = name := by
  have hhead := Transfer.head?_relative (parted_singleton h)
  rw [List.nil_append, relative_singleton] at hhead
  rw [Path.below, if_neg hhead, if_pos (.inr rfl)]
  exact String.empty_append

theorem getLast?_below (workRoot : String) :
    (Path.below workRoot name).toList.getLast? ≠ some '/' := by
  by_cases hroot : workRoot = ""
  · rw [hroot, below_empty h]
    exact fun heq ↦ h.slash (List.mem_of_getLast? heq)
  · have hlast := Transfer.getLast?_below hroot (parted_singleton h)
    rwa [List.nil_append, relative_singleton] at hlast

theorem below_ne_empty (workRoot : String) : Path.below workRoot name ≠ "" := by
  by_cases hroot : workRoot = ""
  · rw [hroot, below_empty h]
    exact h.nonempty
  · have hne := Transfer.below_ne_empty hroot (parted_singleton h)
    rwa [List.nil_append, relative_singleton] at hne

theorem steps_below (workRoot : String) :
    Files.steps (Path.below workRoot name) = Path.names workRoot.toList ++ [name] := by
  rw [Files.steps_of_getLast? (getLast?_below h workRoot)]
  by_cases hroot : workRoot = ""
  · rw [hroot, below_empty h, Path.names_of_not_mem h.nonempty h.slash]
    rfl
  · have hnames := Transfer.names_below hroot (parted_singleton h)
    rwa [List.nil_append, relative_singleton] at hnames

theorem isAbsolute_below (workRoot : String) :
    Files.isAbsolute (Path.below workRoot name) = Files.isAbsolute workRoot := by
  by_cases hroot : workRoot = ""
  · have hhead := Transfer.head?_relative (parted_singleton h)
    rw [List.nil_append, relative_singleton] at hhead
    rw [hroot, below_empty h, Files.isAbsolute, beq_eq_false_iff_ne.2 hhead]
    rfl
  · have habsolute := Transfer.isAbsolute_below hroot (parted_singleton h)
    rwa [List.nil_append, relative_singleton] at habsolute

theorem nul_not_mem_below (hroot : '\x00' ∉ workRoot.toList) (hname : '\x00' ∉ name.toList) :
    '\x00' ∉ (Path.below workRoot name).toList := by
  have hhead := Transfer.head?_relative (parted_singleton h)
  rw [List.nil_append, relative_singleton] at hhead
  rw [Path.below, if_neg hhead]
  split
  · rw [String.toList_append, List.mem_append, not_or]
    exact ⟨hroot, hname⟩
  · have hslash : '\x00' ∉ "/".toList := by decide
    simp only [String.toList_append, List.mem_append, not_or]
    exact ⟨⟨hroot, hslash⟩, hname⟩

end Path

/-! ## The directory of a work root -/

/-- A work root leads to a place; no path at all leads to where relative paths begin. -/
structure Leading (fs : Files) (workRoot : String) (W : Place) (c : Node) : Prop where
  standing : fs.IsStanding
  nul : '\x00' ∉ workRoot.toList
  leads : Leads fs.root true Files.greatestLinks (fs.start workRoot) (Path.names workRoot.toList)
    (.present W c)

/-- What comes of making a directory under a name in what a node is. -/
def admits (c : Node) (name : String) : Except Files.Fault Unit :=
  match c with
  | .directory m es =>
    if !(Node.directory m es).allows .search then .error .denied
    else if Files.greatestName < name.utf8ByteSize then .error .nameTooLong
    else if (es.lookup name).isSome then .error .taken
    else if !(Node.directory m es).allows .write then .error .denied
    else .ok ()
  | _ => .error .notDirectory

namespace Leading

theorem at?_eq (h : Leading fs workRoot W c) : fs.root.at? W = some c := h.leads.at? rfl

/-- What a path below the work root leads to. -/
theorem find_below (h : Leading fs workRoot W c) (hname : IsPart name) (hnul : '\x00' ∉ name.toList)
    (follow : Bool) :
    ∃ jump, fs.find follow (Path.below workRoot name) =
      if Files.greatestPath < (Path.below workRoot name).utf8ByteSize then .error .nameTooLong
      else Files.walkOn fs.root follow jump W [name] := by
  obtain ⟨jump, hjump⟩ : ∃ jump, Files.walk fs.root follow Files.greatestLinks (fs.start workRoot)
      (Path.names workRoot.toList ++ [name]) = Files.walkOn fs.root follow jump W [name] :=
    Files.walk_append h.leads rfl (.inl (List.cons_ne_nil name []))
  refine ⟨jump, ?_⟩
  have hnul' := nul_not_mem_below hname h.nul hnul
  split
  · next hlong =>
    refine Files.find_of_unusable? (below_ne_empty hname workRoot) ?_
    rw [Files.unusable?, List.contains_eq_mem, decide_eq_false hnul', if_pos hlong]
    rfl
  · next hshort =>
    have hpath : Files.IsPath (Path.below workRoot name) :=
      ⟨hnul', below_ne_empty hname workRoot, Nat.not_lt.1 hshort⟩
    rw [Files.find_of_isPath h.standing hpath, steps_below hname, Files.start,
      isAbsolute_below hname, ← hjump]
    rfl

/-- **A sandbox is made if the directory of the work root admits its name.** -/
theorem withDirectory_below (h : Leading fs workRoot W c) (hname : IsPart name)
    (hnul : '\x00' ∉ name.toList) :
    fs.withDirectory (Path.below workRoot name) =
      if Files.greatestPath < (Path.below workRoot name).utf8ByteSize then .error .nameTooLong
      else (admits c name).map fun _ ↦ fs.within (W ++ [name]) Node.emptyDirectory := by
  obtain ⟨jump, hfind⟩ := h.find_below hname hnul false
  have hnul' := nul_not_mem_below hname h.nul hnul
  rw [Files.withDirectory, Files.isTooLong, List.contains_eq_mem, decide_eq_false hnul',
    Files.withoutEnd_of_getLast? (getLast?_below hname workRoot), hfind]
  by_cases hlong : Files.greatestPath < (Path.below workRoot name).utf8ByteSize
  · rw [decide_eq_true hlong, if_pos hlong, if_pos hlong]
    rfl
  rw [decide_eq_false hlong, if_neg hlong, if_neg hlong, Files.walkOn, h.at?_eq]
  cases c with
  | file m b i => rfl
  | link target => rfl
  | device d => rfl
  | directory m es =>
    have hmay : fs.mayChange (W ++ [name]) =
        ((Node.directory m es).allows .write && (Node.directory m es).allows .search) := by
      rw [Files.mayChange, List.dropLast_concat, h.at?_eq]
    have hthere : fs.root.at? (W ++ [name]) = es.lookup name := by
      rw [Node.at?_concat, h.at?_eq]
      rfl
    dsimp only [admits]
    rw [if_neg hname.notHere, if_neg hname.notAbove]
    by_cases hsearch : (Node.directory m es).allows .search = true
    · simp only [hsearch, Bool.not_true, Bool.false_eq_true, if_false, Bool.and_true] at hmay ⊢
      by_cases hsize : Files.greatestName < name.utf8ByteSize
      · simp only [hsize, if_true, Except.map]
        rfl
      · simp only [hsize, if_false]
        cases hentry : es.lookup name with
        | none =>
          simp only [List.isEmpty_nil, if_true, hmay, Option.isSome_none, Bool.false_eq_true, if_false]
          cases (Node.directory m es).allows .write <;> rfl
        | some d =>
          cases d with
          | link target => rfl
          | file m b i => dsimp only; rw [Files.walkOn, hthere, hentry]; rfl
          | directory m es => dsimp only; rw [Files.walkOn, hthere, hentry]; rfl
          | device d => dsimp only; rw [Files.walkOn, hthere, hentry]; rfl
    · simp only [Bool.eq_false_iff.2 hsearch, Bool.not_false, if_true, Except.map]
      rfl

/-- A name is admitted if it is new and not too long, in a directory that lets names be given. -/
theorem admits_eq_ok (h : Leading fs workRoot W c) :
    admits c name = .ok () ↔ Changeable fs.root W ∧ name.utf8ByteSize ≤ Files.greatestName ∧
      fs.root.at? (W ++ [name]) = none := by
  constructor
  · intro hadmits
    cases c with
    | file m b i => exact nomatch hadmits
    | link target => exact nomatch hadmits
    | device d => exact nomatch hadmits
    | directory m es =>
      rw [admits] at hadmits
      split_ifs at hadmits with hsearch hsize hentry hwrite
      rw [Bool.not_eq_true', Bool.not_eq_false] at hsearch hwrite
      refine ⟨⟨m, Node.faceAt?_eq_directory.2 ⟨es, h.at?_eq⟩, hwrite, hsearch⟩,
        Nat.not_lt.1 hsize, ?_⟩
      rw [Node.at?_concat, h.at?_eq]
      exact Option.not_isSome_iff_eq_none.1 hentry
  · rintro ⟨⟨m, hface, hwrite, hsearch⟩, hsize, hnone⟩
    obtain ⟨es, hW⟩ := Node.faceAt?_eq_directory.1 hface
    obtain rfl := Option.some.inj (h.at?_eq.symm.trans hW)
    rw [Node.at?_concat, hW] at hnone
    have hentry : es.lookup name = none := hnone
    rw [← Files.allows_directory _ m es] at hwrite hsearch
    rw [admits, hsearch, hwrite, hentry, if_neg (Nat.not_lt.2 hsize)]
    rfl

end Leading

/-- **The work root that was made leads to a place.** -/
theorem exists_leading (h : fs.IsStanding)
    (hmade : perform (Files.createAll workRoot) fs = (.ok (), made)) :
    ∃ W c, Leading made workRoot W c := by
  have hmakes := Files.makes_createAll fs workRoot
  rw [hmade] at hmakes
  have hstanding := (hmakes.furnishes h).standing h
  by_cases hroot : workRoot = ""
  · subst hroot
    obtain ⟨c, hc⟩ := Option.ne_none_iff_exists'.1 hstanding
    exact ⟨made.here, c, hstanding, by decide, .present hc⟩
  · obtain ⟨W, c, hbased⟩ := Transfer.exists_based hstanding (hmakes.isDirectory h rfl hroot)
    exact ⟨W, c, hstanding, hbased.isPath.nul, hbased.leads_names⟩

/-! ## A place for a sandbox -/

/-- Files that hold all that others do, and perhaps more. -/
structure Over (made fs : Files) : Prop where
  here_eq : fs.here = made.here
  isExtension : made.root.Extends fs.root
  tree : fs.root.Sound

theorem Over.standing (hover : Over made fs) (h : made.IsStanding) : fs.IsStanding := by
  obtain ⟨c, hc⟩ := Option.ne_none_iff_exists'.1 h
  obtain ⟨c', hc', -⟩ := hover.isExtension.entry hc
  rw [Files.IsStanding, hover.here_eq, hc']
  exact Option.some_ne_none c'

/-- A path leads to a name that nothing has, in a directory that lets it be given. -/
structure Plot (made : Files) (root : String) (W : Place) (name : String) : Prop where
  standing : made.IsStanding
  tree : made.root.Sound
  find_eq : ∀ follow, made.find follow root = .ok (.vacant (W ++ [name]))
  changeable : Changeable made.root W
  isName : IsName name
  vacant : made.root.at? (W ++ [name]) = none

namespace Plot

variable (h : Plot made root W name)

include h

/-- Something can be put at the place, in all files that hold what was there. -/
theorem holds (hover : Over made fs) : fs.root.Holds (W ++ [name]) := by
  obtain ⟨m, hface, -⟩ := h.changeable
  obtain ⟨es, hW⟩ := Node.faceAt?_eq_directory.1 (hover.isExtension.directory hface)
  exact .entry hW name

theorem mayChange (hover : Over made fs) : fs.mayChange (W ++ [name]) = true := by
  obtain ⟨m, hface, hwrite, hsearch⟩ := h.changeable
  exact Changeable.mayChange ⟨m, hover.isExtension.directory hface, hwrite, hsearch⟩ name

theorem isName_of_mem : ∀ step ∈ W ++ [name], IsName step := by
  obtain ⟨m, es, hW, -⟩ := Files.searchable_iff.1 h.changeable.searchable
  intro step hstep
  rcases List.mem_append.1 hstep with hstep | hstep
  · exact (h.tree.at? hW).1 step hstep
  · exact List.mem_singleton.1 hstep ▸ h.isName

/-- The path leads to what stands at the place, in all files that hold what was there. -/
theorem find_present (hover : Over made fs) (hat : fs.root.at? (W ++ [name]) = some n)
    (hlink : n.isLink = false) (follow : Bool) :
    fs.find follow root = .ok (.present (W ++ [name]) n) := by
  obtain ⟨hpath, hleads⟩ := (Files.find_eq_ok h.standing).1 (h.find_eq follow)
  refine (Files.find_eq_ok (hover.standing h.standing)).2 ⟨hpath, ?_⟩
  rw [Files.start, hover.here_eq]
  exact hleads.of_vacant hover.isExtension rfl hat hlink

theorem based (hover : Over made fs) (hat : fs.root.at? (W ++ [name]) = some n)
    (hdir : n.isDirectory = true) : Based fs root (W ++ [name]) n where
  standing := hover.standing h.standing
  find_eq := h.find_present hover hat (Node.isLink_of_isDirectory hdir) true
  isDirectory := hdir

/-- Files with something at the place hold what was there before. -/
theorem over_within (hover : Over made fs) (hn : n.Sound) :
    Over made (fs.within (W ++ [name]) n) where
  here_eq := hover.here_eq
  isExtension := hover.isExtension.put (h.holds hover) h.vacant n
  tree := hover.tree.put h.isName_of_mem hn

/-- A sandbox is removed if all that is in it can be. -/
theorem perform_removeAll (hover : Over made fs) (hat : fs.root.at? (W ++ [name]) = some n)
    (hdir : n.isDirectory = true) :
    perform (Files.removeAll root) fs =
      if n.isRemovable then (.ok (), { fs with root := fs.root.erase (W ++ [name]) })
      else (.error .denied, fs) := by
  have hpresent := Files.present_eq_ok.2
    (h.find_present hover hat (Node.isLink_of_isDirectory hdir) false)
  have hmay := h.mayChange hover
  rw [Files.removeAll, Action.perform_bind, Files.perform_look, hpresent]
  dsimp only
  rw [hdir]
  simp only [Bool.true_or, if_true]
  rw [Action.perform_bind_ok (Action.perform_get fs), hmay, Bool.and_true]
  cases n.isRemovable <;> rfl

end Plot

namespace Plot

variable (h : Plot made root W name)

include h

/-! ### In files that hold nothing else -/

theorem over_self : Over made made := ⟨rfl, .refl _, h.tree⟩

theorem over_within_self (hn : n.Sound) : Over made (made.within (W ++ [name]) n) :=
  h.over_within h.over_self hn

theorem at?_within (n : Node) : (made.within (W ++ [name]) n).root.at? (W ++ [name]) = some n :=
  (h.holds h.over_self).at?_put n

theorem based_within (hn : n.Sound) (hdir : n.isDirectory = true) :
    Based (made.within (W ++ [name]) n) root (W ++ [name]) n :=
  h.based (h.over_within_self hn) (h.at?_within n) hdir

theorem within_within {n' : Node} (hn : n.Sound) (hn' : n'.Sound) :
    (made.within (W ++ [name]) n).within (W ++ [name]) n' = made.within (W ++ [name]) n' :=
  congrArg (Files.mk · made.here)
    (Node.put_put h.tree h.isName_of_mem (h.holds h.over_self) hn hn')

end Plot

/-! ## Making a sandbox -/

/-- What making a sandbox with the work root comes to. -/
theorem perform_create (fs : Files) (workRoot name : String) :
    perform (create workRoot name) fs =
      match perform (Files.createAll workRoot) fs with
      | (.error fault, made) => (.error ⟨Path.below workRoot name, fault⟩, made)
      | (.ok (), made) =>
        match made.withDirectory (Path.below workRoot name) with
        | .ok fs' => (.ok (Path.below workRoot name), fs')
        | .error fault => (.error ⟨Path.below workRoot name, fault⟩, made) := by
  rw [create, Action.perform_bind, Files.describing, Action.perform_adapt, Action.perform_bind]
  rcases perform (Files.createAll workRoot) fs with ⟨fault | _, made⟩
  · rfl
  · cases hmade : made.withDirectory (Path.below workRoot name) with
    | ok fs' =>
      have hbecome : perform (Files.makeDirectory (Path.below workRoot name)) made = (.ok (), fs') :=
        Files.perform_become hmade
      simp only [hbecome, hmade]
      rfl
    | error fault =>
      have hbecome : perform (Files.makeDirectory (Path.below workRoot name)) made =
          (.error fault, made) := Files.perform_become_error hmade
      simp only [hbecome, hmade]
      rfl

/-- **A sandbox is made at such a place.** -/
theorem plot_of_withDirectory {fs' : Files} (hleading : Leading made workRoot W c)
    (htree : made.root.Sound) (hname : IsPart name) (hnul : '\x00' ∉ name.toList)
    (hmade : made.withDirectory (Path.below workRoot name) = .ok fs') :
    Plot made (Path.below workRoot name) W name ∧
      fs' = made.within (W ++ [name]) Node.emptyDirectory := by
  rw [hleading.withDirectory_below hname hnul] at hmade
  split at hmade
  · exact nomatch hmade
  next hshort =>
  obtain ⟨_, hadmits, rfl⟩ := Outcome.map_eq_ok.1 hmade
  obtain ⟨hW, hsize, hnone⟩ := hleading.admits_eq_ok.1 hadmits
  have hisName : IsName name :=
    ⟨hname.nonempty, hname.slash, hnul, hname.notHere, hname.notAbove, hsize⟩
  refine ⟨⟨hleading.standing, htree, fun follow ↦ ?_, hW, hisName, hnone⟩, rfl⟩
  obtain ⟨jump, hfind⟩ := hleading.find_below hname hnul follow
  rw [hfind, if_neg hshort,
    Files.walkOn_entry hW.searchable (Files.isEntryStep_of_isName hisName), hnone]
  rfl

/-- A directory was made directly in the one that a work root leads to.  There, names could be given
and this one was new.  There is nothing in the directory, and its path leads there. -/
structure MadeIn (fs fs' : Files) (workRoot root name : String) : Prop where
  root_eq : root = Path.below workRoot name
  steps_eq : Files.steps root = Path.names workRoot.toList ++ [name]
  short : root.utf8ByteSize ≤ Files.greatestPath
  exists_place : ∃ made W c, perform (Files.createAll workRoot) fs = (.ok (), made) ∧
    Leading made workRoot W c ∧ Changeable made.root W ∧ made.root.at? (W ++ [name]) = none ∧
    fs' = made.within (W ++ [name]) Node.emptyDirectory ∧
    Based fs' root (W ++ [name]) Node.emptyDirectory

/-- **A sandbox is made directly in the directory of the work root**, unless its path is too long or
that directory does not let it be made. -/
theorem create_eq_ok_iff {fs' : Files} (hs : fs.Sound) (hname : IsName name) :
    perform (create workRoot name) fs = (.ok root, fs') ↔ MadeIn fs fs' workRoot root name := by
  rw [perform_create]
  constructor
  · intro hmade
    rcases hall : perform (Files.createAll workRoot) fs with ⟨fault | _, made⟩
    · rw [hall] at hmade
      exact nomatch hmade
    rw [hall] at hmade
    dsimp only at hmade
    cases hwith : made.withDirectory (Path.below workRoot name) with
    | error fault =>
      rw [hwith] at hmade
      exact nomatch hmade
    | ok fs'' =>
      rw [hwith] at hmade
      obtain ⟨hroot, rfl⟩ := Prod.mk.inj hmade
      obtain rfl := Except.ok.inj hroot
      obtain ⟨W, c, hleading⟩ := exists_leading hs.standing hall
      have hready := Files.readies_createAll hs.standing workRoot
      rw [hall] at hready
      obtain ⟨hplot, rfl⟩ := plot_of_withDirectory hleading (hready.furnishes.tree hs.tree)
        hname.isPart hname.nul hwith
      obtain ⟨hpath, -⟩ := (Files.find_eq_ok hleading.standing).1 (hplot.find_eq true)
      exact {
        root_eq := rfl
        steps_eq := steps_below hname.isPart workRoot
        short := hpath.size
        exists_place := ⟨made, W, c, hall, hleading, hplot.changeable, hplot.vacant, rfl,
          hplot.based_within Node.sound_emptyDirectory rfl⟩ }
  · rintro ⟨rfl, -, hshort, made, W, c, hall, hleading, hchangeable, hnone, rfl, -⟩
    have hadmits := hleading.admits_eq_ok.2 ⟨hchangeable, hname.size, hnone⟩
    have hwith := hleading.withDirectory_below hname.isPart hname.nul
    rw [if_neg (Nat.not_lt.2 hshort), hadmits] at hwith
    rw [hall]
    dsimp only
    rw [hwith]
    rfl

/-- **Sandboxes have safe names of their own.**  Whatever text the identifier of a request is, the
name of its sandbox consists of letters and digits of ASCII, hyphens and underscores, it is short
enough for the name of something in a directory, and it is no path of several steps.  So a sandbox
is a new directory directly in that of the work root, and it is made whenever there can be one.
Sandboxes with different numbers have different names, also where the identifiers look like the
names of others, and whatever the clock says. -/
theorem names_contained_distinct :
    (∀ (requestId : String) (nanoseconds number : Nat), nanoseconds < 2 ^ 128 → number < 2 ^ 64 →
      (∀ c ∈ (Sandbox.name requestId nanoseconds number).toList,
        c.isAlphanum = true ∨ c = '-' ∨ c = '_') ∧
      (Sandbox.name requestId nanoseconds number).utf8ByteSize ≤ 125 ∧
      IsName (Sandbox.name requestId nanoseconds number) ∧
      ∀ (fs fs' : Files) (workRoot root : String), fs.Sound →
        (perform (create workRoot (Sandbox.name requestId nanoseconds number)) fs =
            (.ok root, fs') ↔
          MadeIn fs fs' workRoot root (Sandbox.name requestId nanoseconds number))) ∧
    ∀ (requestId requestId' : String) (nanoseconds nanoseconds' number number' : Nat),
      number ≠ number' →
        Sandbox.name requestId nanoseconds number ≠
          Sandbox.name requestId' nanoseconds' number' := by
  refine ⟨fun requestId nanoseconds number hnanoseconds hnumber ↦ ?_,
    fun requestId requestId' nanoseconds nanoseconds' number number' hne heq ↦
      hne (number_eq_of_name_eq heq)⟩
  have hname := isName_name requestId hnanoseconds hnumber
  exact ⟨fun c hc ↦ isSafe_of_mem_name hc, utf8ByteSize_name_le requestId hnanoseconds hnumber,
    hname, fun fs fs' workRoot root hs ↦ create_eq_ok_iff hs hname⟩

theorem names_contained_distinct_of_lookalikes :
    Sandbox.name "../ü" 7 3 = "____-7-3" ∧
      (∃ fs', MadeIn ⟨.emptyDirectory, []⟩ fs' "w" "w/____-7-3" (Sandbox.name "../ü" 7 3)) ∧
      Sandbox.name "r" 5 1 = "r-5-1" ∧ Sandbox.name "r-5-1" 5 2 = "r-5-1-5-2" ∧
      Sandbox.name "r" 5 1 ≠ Sandbox.name "r-5-1" 5 2 := by
  obtain ⟨hcontained, hdistinct⟩ := names_contained_distinct
  obtain ⟨-, -, -, hcreate⟩ := hcontained "../ü" 7 3 (by decide) (by decide)
  have hempty : Files.Sound ⟨.emptyDirectory, []⟩ :=
    Files.sound_of_identities (by decide +kernel) (by decide +kernel) nofun
  have hmade : (perform (create "w" (Sandbox.name "../ü" 7 3)) ⟨.emptyDirectory, []⟩).1 =
      .ok "w/____-7-3" := by decide +kernel
  exact ⟨by decide +kernel, ⟨_, (hcreate _ _ "w" _ hempty).1 (Prod.ext hmade rfl)⟩,
    by decide +kernel, by decide +kernel, hdistinct _ _ _ _ _ _ (by decide)⟩

end Sandbox
end FirmwareLane
