import FirmwareLane.Proofs.Worker.Housing

/-!
# Sandboxes beside each other

All sandboxes of a worker are made in one directory, that of the work root (`Ground`).  Whatever
happens in one of them, or to it, happens at its place and below (`Beside`): the work root stays, the
others stay what they are (`Housed.of_beside`), and what nobody has made is still missing.

Whether a sandbox can be made does not depend on the others either, if its name is new
(`withDirectory_twin`).
-/

set_option autoImplicit false
namespace FirmwareLane

open Action (perform)
open Sandbox (Leading Over Plot admits)
open Transfer (Based SameRoom)

variable {fs fs' made : Files} {workRoot root name name' : String} {W P : Place} {c n k : Node}

/-! ## Changes at one place -/

/-- Nothing became of files but at a place and below, and no file there has a name elsewhere. -/
structure Beside (P : Place) (fs fs' : Files) : Prop where
  here_eq : fs'.here = fs.here
  tree : fs'.root.Sound
  faceAt?_eq : ∀ q, ¬ P <+: q → fs'.root.faceAt? q = fs.root.faceAt? q
  owned : ∀ q m b i, i ≠ 0 → fs'.root.at? (P ++ q) = some (.file m b i) →
    ∀ q' m' b', fs'.root.at? q' = some (.file m' b' i) → P <+: q'

theorem beside_of_leaves (h : Housed made fs root W name n)
    (hleaves : Leaves fs fs' (W ++ [name]) k) : Beside (W ++ [name]) fs fs' := by
  have hhoused := h.of_leaves hleaves
  obtain ⟨rfl, -, -, -⟩ := hleaves
  refine ⟨rfl, hhoused.keeps.tree, fun q hq ↦ ?_, fun q m b i hi hfile q' m' b' hq' ↦ ?_⟩
  · exact (h.plot.holds h.keeps).faceAt?_put_outside k hq
  · rw [Node.at?_append, hhoused.at?_eq] at hfile
    exact hhoused.owned q m b i hfile hi q' m' b' hq'

/-- A sandbox that is removed leaves nothing at its place. -/
theorem beside_erase (h : Housed made fs root W name n) :
    Beside (W ++ [name]) fs { fs with root := fs.root.erase (W ++ [name]) } := by
  obtain ⟨m, es, habove⟩ := Node.exists_directory_of_at? (List.cons_ne_nil name []) h.at?_eq
  have hface : ∀ q, (fs.root.erase (W ++ [name])).faceAt? q =
      if W ++ [name] <+: q then none else fs.root.faceAt? q := by
    intro q
    rw [Node.erase, Node.faceAt?_alter habove rfl]
    rfl
  refine ⟨rfl, ?_, fun q hq ↦ (hface q).trans (if_neg hq), fun q m b i _ hfile ↦ ?_⟩
  · exact h.keeps.tree.alter h.plot.isName_of_mem fun _ hc ↦ nomatch hc
  · have hnone := (hface (W ++ [name] ++ q)).trans (if_pos (List.prefix_append ..))
    rw [Node.faceAt?_eq_none.1 hnone] at hfile
    exact nomatch hfile

namespace Beside

/-- What stands beside a place stays. -/
theorem at?_eq {q : Place} (h : Beside P fs fs') (hs : fs.root.Sound)
    (hq : ∀ r, ¬ P <+: q ++ r) : fs'.root.at? q = fs.root.at? q := by
  have hface : ∀ r, fs'.root.faceAt? (q ++ r) = fs.root.faceAt? (q ++ r) :=
    fun r ↦ h.faceAt?_eq _ (hq r)
  have hself := hface []
  rw [List.append_nil] at hself
  cases hc : fs.root.at? q with
  | none =>
    rw [Node.faceAt?_eq_none.2 hc] at hself
    exact Node.faceAt?_eq_none.1 hself
  | some c =>
    cases hc' : fs'.root.at? q with
    | none =>
      rw [Node.faceAt?_eq_none.2 hc', Node.faceAt?, hc] at hself
      cases hself
    | some c' =>
      refine congrArg some (Node.Sound.ext (h.tree.at? hc').2 (hs.at? hc).2 fun r ↦ ?_)
      rw [← Node.faceAt?_append hc', ← Node.faceAt?_append hc, hface]

/-- Files still hold all that others do where there was nothing. -/
theorem keeps (h : Beside P fs fs') (hover : Over made fs) (hnone : made.root.at? P = none) :
    Over made fs' where
  here_eq := h.here_eq.trans hover.here_eq
  tree := h.tree
  isExtension q c hc := by
    by_cases hq : P <+: q
    · -- there is nothing below nothing
      obtain ⟨r, rfl⟩ := hq
      obtain ⟨n, hn, -⟩ := Option.map_eq_some_iff.1 hc
      rw [Node.at?_append, hnone] at hn
      exact nomatch hn
    · obtain ⟨c', hc', heq⟩ := hover.isExtension q c hc
      exact ⟨c', (h.faceAt?_eq q hq).trans hc', heq⟩

end Beside

theorem not_isPrefix_of_ne (hne : name ≠ name') (r : Place) :
    ¬ W ++ [name] <+: W ++ [name'] ++ r := by
  rw [List.append_assoc, List.prefix_append_right_inj]
  exact fun h ↦ hne (List.cons_prefix_cons.1 h).1

/-- **A sandbox stays what it is when something happens in another, or to it.** -/
theorem Housed.of_beside (h : Housed made fs root W name n) (hbeside : Beside (W ++ [name']) fs fs')
    (hover : Over made fs') (hne : name' ≠ name) : Housed made fs' root W name n where
  plot := h.plot
  keeps := hover
  at?_eq := (hbeside.at?_eq h.keeps.tree (not_isPrefix_of_ne hne)).trans h.at?_eq
  isDirectory := h.isDirectory
  owned p m b i hfile hi q m' b' hq := by
    have hold : fs.root.at? (W ++ [name] ++ p) = some (.file m b i) := by
      rw [Node.at?_append, h.at?_eq]
      exact hfile
    by_cases hbelow : W ++ [name'] <+: q
    · -- then the file here would be there too
      obtain ⟨r, rfl⟩ := hbelow
      have hhere : fs'.root.at? (W ++ [name] ++ p) = some (.file m b i) := by
        refine (hbeside.at?_eq h.keeps.tree fun r ↦ ?_).trans hold
        rw [List.append_assoc _ p r]
        exact not_isPrefix_of_ne hne (p ++ r)
      exact absurd (hbeside.owned r m' b' i hi hq _ m b hhere) (not_isPrefix_of_ne hne p)
    · have hface := hbeside.faceAt?_eq q hbelow
      rw [Node.faceAt?_eq_file.2 hq] at hface
      exact h.owned p m b i hfile hi q m' b' (Node.faceAt?_eq_file.1 hface.symm)

/-! ## The directory of the work root -/

/-- The work root was made, and leads to a place. -/
structure Ground (made : Files) (workRoot : String) (W : Place) (c : Node) : Prop where
  leading : Leading made workRoot W c
  isDirectory : workRoot ≠ "" → made.isDirectory workRoot = true
  tree : made.root.Sound

namespace Ground

variable (h : Ground made workRoot W c)

include h

theorem over_self : Over made made := ⟨rfl, .refl _, h.tree⟩

/-- The work root leads to the same place whatever is new. -/
theorem exists_leading (hover : Over made fs) :
    ∃ c', Leading fs workRoot W c' ∧ c'.face.outline = c.face.outline := by
  obtain ⟨c', hleads⟩ := h.leading.leads.of_extends hover.isExtension rfl
  have hstart : fs.start workRoot = made.start workRoot := by
    rw [Files.start, Files.start, hover.here_eq]
  rw [← hstart] at hleads
  refine ⟨c', ⟨hover.standing h.leading.standing, h.leading.nul, hleads⟩, ?_⟩
  obtain ⟨f, hf, heq⟩ := hover.isExtension W c.face (congrArg (Option.map Node.face) h.leading.at?_eq)
  obtain ⟨d, hd, rfl⟩ := Option.map_eq_some_iff.1 hf
  rwa [Option.some.inj ((hleads.at? rfl).symm.trans hd)]

/-- The work root need not be made again. -/
theorem perform_createAll (hover : Over made fs) :
    perform (Files.createAll workRoot) fs = (.ok (), fs) := by
  by_cases hroot : workRoot = ""
  · subst hroot
    rfl
  · have hstanding := hover.standing h.leading.standing
    obtain ⟨place, m, es, hfind⟩ := Files.isDirectory_iff.1 (h.isDirectory hroot)
    obtain ⟨hpath, hleads⟩ := (Files.find_eq_ok h.leading.standing).1 hfind
    obtain ⟨c', hleads'⟩ := hleads.of_extends hover.isExtension rfl
    have hfind' : fs.find true workRoot = .ok (.present place c') := by
      refine (Files.find_eq_ok hstanding).2 ⟨hpath, ?_⟩
      rw [Files.start, hover.here_eq]
      exact hleads'
    have hface := hover.isExtension.directory (Node.faceAt?_eq_directory.2 ⟨es, hleads.at? rfl⟩)
    obtain ⟨es', hes'⟩ := Node.faceAt?_eq_directory.1 hface
    rw [Option.some.inj ((hleads'.at? rfl).symm.trans hes')] at hfind'
    exact Files.createAll_of_isDirectory hstanding (Files.isDirectory_iff.2 ⟨_, _, _, hfind'⟩)

end Ground

namespace Sandbox

/-- There is nothing in the directory of a work root that is named like a sandbox. -/
def IsVacant (fs : Files) (workRoot : String) : Prop :=
  ∀ W c, Leading fs workRoot W c → ∀ requestId nanoseconds number,
    c.entries.lookup (Sandbox.name requestId nanoseconds number) = none

/-- There is no directory in the directory of a work root that is named like a sandbox. -/
def IsClear (fs : Files) (workRoot : String) : Prop :=
  ∀ W c, Leading fs workRoot W c → ∀ requestId nanoseconds number d,
    c.entries.lookup (Sandbox.name requestId nanoseconds number) = some d → d.isDirectory = false

/-- What is named like a sandbox has a dash in its name. -/
theorem exists_visit (hs : fs.root.Sound) (hleading : Leading fs workRoot W c) {requestId : String}
    {nanoseconds number : Nat} {d : Node}
    (hd : c.entries.lookup (Sandbox.name requestId nanoseconds number) = some d) :
    ∃ visit ∈ fs.root.visits, ∃ entry ∈ visit.2.entries,
      '-' ∈ entry.1.toList ∧ entry.2 = d :=
  ⟨_, (Node.mem_visits hs).2 hleading.at?_eq, _, Keyed.mem_of_lookup hd, dash_mem_name _ _ _, rfl⟩

theorem isVacant_of_visits (hs : fs.root.Sound)
    (h : ∀ visit ∈ fs.root.visits, ∀ entry ∈ visit.2.entries, '-' ∉ entry.1.toList) :
    IsVacant fs workRoot := by
  intro W c hleading requestId nanoseconds number
  by_contra hd
  obtain ⟨d, hd⟩ := Option.ne_none_iff_exists'.1 hd
  obtain ⟨visit, hvisit, entry, hentry, hdash, -⟩ := exists_visit hs hleading hd
  exact h visit hvisit entry hentry hdash

theorem isClear_of_visits (hs : fs.root.Sound)
    (h : ∀ visit ∈ fs.root.visits, ∀ entry ∈ visit.2.entries,
      '-' ∈ entry.1.toList → entry.2.isDirectory = false) :
    IsClear fs workRoot := by
  intro W c hleading requestId nanoseconds number d hd
  obtain ⟨visit, hvisit, entry, hentry, hdash, rfl⟩ := exists_visit hs hleading hd
  exact h visit hvisit entry hentry hdash

theorem IsVacant.at?_eq (h : IsVacant fs workRoot) (hleading : Leading fs workRoot W c)
    (requestId : String) (nanoseconds number : Nat) :
    fs.root.at? (W ++ [Sandbox.name requestId nanoseconds number]) = none := by
  rw [Node.at?_concat, hleading.at?_eq]
  exact h W c hleading requestId nanoseconds number

theorem Over.at?_eq_none (hover : Over made fs) {q : Place} (hnone : fs.root.at? q = none) :
    made.root.at? q = none := by
  cases hc : made.root.at? q with
  | none => rfl
  | some d =>
    obtain ⟨d', hd', -⟩ := hover.isExtension.entry hc
    exact nomatch hnone.symm.trans hd'

/-! ## The length of a path -/

theorem utf8ByteSize_below (hname : IsPart name) (workRoot : String) :
    (Path.below workRoot name).utf8ByteSize =
      (Path.below workRoot "").utf8ByteSize + name.utf8ByteSize := by
  by_cases hroot : workRoot = ""
  · rw [hroot, below_empty hname]
    exact (Nat.zero_add _).symm
  · have hsize := Transfer.utf8ByteSize_below hroot (parted_singleton hname)
    rwa [List.nil_append, relative_singleton] at hsize

/-- Two sandboxes have paths of one length if their names have. -/
theorem sameRoom_iff (hname : IsPart name) (hname' : IsPart name') (workRoot : String) :
    SameRoom (Path.below workRoot name) (Path.below workRoot name') ↔
      name.utf8ByteSize = name'.utf8ByteSize := by
  have hend : ∀ {name : String}, IsPart name →
      (Path.below (Path.below workRoot name) "").utf8ByteSize =
        (Path.below workRoot "").utf8ByteSize + name.utf8ByteSize + 1 := by
    intro name hname
    have hlast : ¬ ((Path.below workRoot name).toList.getLast? = some '/' ∨
        (Path.below workRoot name).isEmpty) := by
      rintro (hlast | hempty)
      · exact getLast?_below hname workRoot hlast
      · exact below_ne_empty hname workRoot (String.isEmpty_iff.1 hempty)
    have hhead : ¬ "".toList.head? = some '/' := by decide
    rw [← utf8ByteSize_below hname, Path.below, if_neg hhead, if_neg hlast, String.append_empty,
      String.utf8ByteSize_append]
    rfl
  rw [SameRoom, hend hname, hend hname']
  omega

/-! ## Making two sandboxes -/

/-- Two directories with the same permissions admit the same new names, but for their lengths. -/
theorem admits_twin {c c' : Node} (h : c'.face.outline = c.face.outline)
    (hnone : c.entries.lookup name = none) (hnone' : c'.entries.lookup name' = none) :
    admits c name = admits c' name' ∨ name.utf8ByteSize ≠ name'.utf8ByteSize ∧
      (admits c name = .error .nameTooLong ∨ admits c' name' = .error .nameTooLong) := by
  cases c with
  | file m b i => cases c' <;> first | exact .inl rfl | exact nomatch h
  | link target => cases c' <;> first | exact .inl rfl | exact nomatch h
  | device d => cases c' <;> first | exact .inl rfl | exact nomatch h
  | directory m es =>
    cases c' with
    | file m b i => exact nomatch h
    | link target => exact nomatch h
    | device d => exact nomatch h
    | directory m' es' =>
      obtain ⟨rfl, -⟩ := Node.directory.inj h
      rw [Node.entries] at hnone hnone'
      have hallows : ∀ p, (Node.directory m' es').allows p = (Node.directory m' es).allows p :=
        fun _ ↦ rfl
      simp only [admits, hnone, hnone', hallows]
      by_cases hsearch : (Node.directory m' es).allows .search = true
      · simp only [hsearch, Bool.not_true, Bool.false_eq_true, if_false]
        by_cases hsize : name.utf8ByteSize = name'.utf8ByteSize
        · rw [hsize]
          exact .inl rfl
        by_cases hlong : Files.greatestName < name.utf8ByteSize
        · exact .inr ⟨hsize, .inl (if_pos hlong)⟩
        by_cases hlong' : Files.greatestName < name'.utf8ByteSize
        · exact .inr ⟨hsize, .inr (if_pos hlong')⟩
        · rw [if_neg hlong, if_neg hlong']
          exact .inl rfl
      · left
        simp only [Bool.eq_false_iff.2 hsearch, Bool.not_false, if_true]

/-- **Whether a sandbox can be made under a new name does not depend on others**, but for the length of
that name. -/
theorem withDirectory_twin (h : Ground made workRoot W c) (hover : Over made fs)
    (hover' : Over made fs') (hname : IsPart name) (hname' : IsPart name')
    (hnul : '\x00' ∉ name.toList) (hnul' : '\x00' ∉ name'.toList)
    (hnone : fs.root.at? (W ++ [name]) = none) (hnone' : fs'.root.at? (W ++ [name']) = none) :
    (fs.withDirectory (Path.below workRoot name) =
          .ok (fs.within (W ++ [name]) Node.emptyDirectory) ∧
        fs'.withDirectory (Path.below workRoot name') =
          .ok (fs'.within (W ++ [name']) Node.emptyDirectory)) ∨
      (∃ fault, fs.withDirectory (Path.below workRoot name) = .error fault ∧
        fs'.withDirectory (Path.below workRoot name') = .error fault) ∨
      ¬ SameRoom (Path.below workRoot name) (Path.below workRoot name') ∧
        (fs.withDirectory (Path.below workRoot name) = .error .nameTooLong ∨
          fs'.withDirectory (Path.below workRoot name') = .error .nameTooLong) := by
  obtain ⟨d, hleading, hd⟩ := h.exists_leading hover
  obtain ⟨d', hleading', hd'⟩ := h.exists_leading hover'
  rw [Node.at?_concat, hleading.at?_eq] at hnone
  rw [Node.at?_concat, hleading'.at?_eq] at hnone'
  rw [hleading.withDirectory_below hname hnul, hleading'.withDirectory_below hname' hnul',
    utf8ByteSize_below hname, utf8ByteSize_below hname', sameRoom_iff hname hname']
  generalize (Path.below workRoot "").utf8ByteSize = front
  rcases admits_twin (hd'.trans hd.symm) hnone hnone' with hsame | ⟨hsize, hone⟩
  · rw [hsame]
    by_cases hsize : name.utf8ByteSize = name'.utf8ByteSize
    · rw [hsize]
      split
      · exact .inr (.inl ⟨_, rfl, rfl⟩)
      · cases admits d' name' with
        | ok _ => exact .inl ⟨rfl, rfl⟩
        | error fault => exact .inr (.inl ⟨fault, rfl, rfl⟩)
    by_cases hlong : Files.greatestPath < front + name.utf8ByteSize
    · exact .inr (.inr ⟨hsize, .inl (if_pos hlong)⟩)
    by_cases hlong' : Files.greatestPath < front + name'.utf8ByteSize
    · exact .inr (.inr ⟨hsize, .inr (if_pos hlong')⟩)
    · rw [if_neg hlong, if_neg hlong']
      cases admits d' name' with
      | ok _ => exact .inl ⟨rfl, rfl⟩
      | error fault => exact .inr (.inl ⟨fault, rfl, rfl⟩)
  · refine .inr (.inr ⟨hsize, hone.imp (fun heq ↦ ?_) fun heq ↦ ?_⟩)
    · rw [heq]
      exact ite_self _
    · rw [heq]
      exact ite_self _

/-- **A sandbox that is made beside others is one that nobody else sees.** -/
theorem housed_of_withDirectory (h : Ground made workRoot W c) (hover : Over made fs)
    (hname : IsPart name) (hnul : '\x00' ∉ name.toList) (hnone : fs.root.at? (W ++ [name]) = none)
    (hmade : fs.withDirectory (Path.below workRoot name) = .ok fs') :
    Housed made fs' (Path.below workRoot name) W name Node.emptyDirectory ∧
      Beside (W ++ [name]) fs fs' := by
  have hplot : Plot made (Path.below workRoot name) W name := by
    rcases withDirectory_twin h h.over_self hover hname hname hnul hnul (hover.at?_eq_none hnone)
      hnone with ⟨hfirst, -⟩ | ⟨fault, -, hno⟩ | ⟨hroom, -⟩
    · exact (plot_of_withDirectory h.leading h.tree hname hnul hfirst).1
    · exact nomatch hmade.symm.trans hno
    · exact absurd rfl hroom
  obtain ⟨c', hleading, -⟩ := h.exists_leading hover
  obtain ⟨-, rfl⟩ := plot_of_withDirectory hleading hover.tree hname hnul hmade
  have hover' := hplot.over_within hover Node.sound_emptyDirectory
  have hat := (hplot.holds hover).at?_put Node.emptyDirectory
  refine ⟨⟨hplot, hover', hat, rfl, fun p m b i hfile ↦ ?_⟩, rfl, hover'.tree, fun q hq ↦ ?_,
    fun q m b i _ hfile ↦ ?_⟩
  · cases p <;> exact nomatch hfile
  · exact (hplot.holds hover).faceAt?_put_outside _ hq
  · rw [Node.at?_append, Files.root_within, hat] at hfile
    cases q <;> exact nomatch hfile

theorem below_injective (hname : IsPart name) (hname' : IsPart name')
    (h : Path.below workRoot name = Path.below workRoot name') : name = name' := by
  have hsteps := congrArg Files.steps h
  rw [steps_below hname, steps_below hname'] at hsteps
  exact (List.cons.inj (List.append_inj' hsteps rfl).2).1

end Sandbox
end FirmwareLane
