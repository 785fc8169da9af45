import FirmwareLane.Proofs.Transfer.Places

/-!
# Following paths below a root

`Based` says that a path leads to a directory, and `Rooted` that it may be gone through; everything
that a transfer does with a path below it begins there.  What such a path leads to is what stands at
its place, as long as directories stand on the way (`find_vacant`, `find_present`).
-/

set_option autoImplicit false
namespace FirmwareLane
namespace Transfer

open Files (IsPath Leads Passable Searchable)

/-! ## A path that leads to a directory -/

/-- A path leads to a place where a node is a directory. -/
structure Based (fs : Files) (root : String) (R : Place) (n : Node) : Prop where
  standing : fs.IsStanding
  find_eq : fs.find true root = .ok (.present R n)
  isDirectory : n.isDirectory = true

namespace Based

variable {fs : Files} {root name : String} {R p : Place} {n : Node} {follow : Bool}

theorem isPath (h : Based fs root R n) : IsPath root := Files.isPath_of_find h.find_eq

theorem ne_empty (h : Based fs root R n) : root ≠ "" := h.isPath.nonempty

theorem leads (h : Based fs root R n) :
    Leads fs.root true Files.greatestLinks (fs.start root) (Files.steps root) (.present R n) :=
  ((Files.find_eq_ok h.standing).1 h.find_eq).2

theorem leads_names (h : Based fs root R n) :
    Leads fs.root true Files.greatestLinks (fs.start root) (Path.names root.toList)
      (.present R n) := by
  obtain ⟨dots, hdots, hsteps⟩ := Files.steps_eq root
  exact h.leads.of_append rfl hsteps hdots rfl

theorem at?_eq (h : Based fs root R n) : fs.root.at? R = some n := h.leads.at? rfl

theorem isDirectory_root (h : Based fs root R n) : fs.isDirectory root = true := by
  have hdir := h.isDirectory
  cases n with
  | directory m es => exact Files.isDirectory_iff.2 ⟨R, m, es, h.find_eq⟩
  | file m b i => exact nomatch hdir
  | link target => exact nomatch hdir
  | device d => exact nomatch hdir

theorem isPath_below (h : Based fs root R n) (hp : Parted p)
    (hnul : ∀ name ∈ p, '\x00' ∉ name.toList)
    (hsize : (Path.below root (relative p)).utf8ByteSize ≤ Files.greatestPath) :
    IsPath (Path.below root (relative p)) := by
  refine ⟨fun hmem ↦ ?_, below_ne_empty h.ne_empty hp, hsize⟩
  rw [Path.toList_below h.ne_empty (head?_relative hp), toList_relative, List.mem_append,
    List.mem_cons] at hmem
  rcases hmem with hroot | heq | hplace
  · refine h.isPath.nul ?_
    rw [Path.stem] at hroot
    split at hroot
    · exact List.dropLast_subset _ hroot
    · exact hroot
  · exact absurd heq (by decide)
  · rcases Path.mem_join hplace with heq | ⟨part, hpart, hc⟩
    · exact absurd heq (by decide)
    · obtain ⟨name, hname, rfl⟩ := List.mem_map.1 hpart
      exact hnul name hname hc

/-- A path below a root leads on from where the root leads. -/
theorem find_below (h : Based fs root R n) (follow : Bool) (hp : Parted (p ++ [name]))
    (hpath : IsPath (Path.below root (relative (p ++ [name])))) :
    ∃ jump, fs.find follow (Path.below root (relative (p ++ [name]))) =
      Files.walkOn fs.root follow jump R (p ++ [name]) := by
  have hmore : p ++ [name] ≠ [] ∨ follow = true := .inl (by simp)
  obtain ⟨jump, hjump⟩ := Files.walk_append h.leads_names rfl hmore
  refine ⟨jump, ?_⟩
  rw [Files.find_of_isPath h.standing hpath, steps_below h.ne_empty hp, ← hjump, Files.start,
    Files.start, isAbsolute_below h.ne_empty hp]

/-- Above a name in the root is a directory. -/
theorem isDirectory_parent (h : Based fs root R n) (hname : IsPart name) :
    ∃ parent, Path.parent? (Path.below root (relative [name])) = some parent ∧
      fs.isDirectory parent = true := by
  obtain ⟨parent, hparent, hne, hshort, habsolute, hsteps, dots, hdots, hnames⟩ :=
    parent?_below_root h.ne_empty hname
  have hisPath : IsPath parent := h.isPath.of_isPrefix hne hshort
  have hbased : Based fs parent R n := by
    refine ⟨h.standing, (Files.find_eq_ok h.standing).2 ⟨hisPath, ?_⟩, h.isDirectory⟩
    rw [hsteps, Files.start, habsolute]
    exact h.leads_names.of_append rfl hnames hdots rfl
  exact ⟨parent, hparent, hbased.isDirectory_root⟩

end Based

/-! ## A directory that may be gone through -/

/-- A path leads to a place where there is a directory that may be gone through. -/
structure Rooted (fs : Files) (root : String) (R : Place) : Prop where
  standing : fs.IsStanding
  leads : ∃ node, fs.find true root = .ok (.present R node)
  searchable : Searchable fs.root R

namespace Rooted

variable {fs : Files} {root name : String} {R p : Place} {follow : Bool}

theorem exists_based (h : Rooted fs root R) : ∃ n, Based fs root R n := by
  obtain ⟨n, hfind⟩ := h.leads
  obtain ⟨m, es, hplace, -⟩ := Files.searchable_iff.1 h.searchable
  have hnode := ((Files.find_eq_ok h.standing).1 hfind).2.at? rfl
  obtain rfl := Option.some.inj (hplace.symm.trans hnode)
  exact ⟨_, h.standing, hfind, rfl⟩

theorem isPath (h : Rooted fs root R) : IsPath root := by
  obtain ⟨n, hbased⟩ := h.exists_based
  exact hbased.isPath

theorem ne_empty (h : Rooted fs root R) : root ≠ "" := h.isPath.nonempty

theorem isDirectory (h : Rooted fs root R) : fs.isDirectory root = true := by
  obtain ⟨n, hbased⟩ := h.exists_based
  exact hbased.isDirectory_root

/-- **A path still leads to a directory when the tree has grown.** -/
theorem of_extends (h : Rooted fs root R) {tree : Node} (hext : fs.root.Extends tree) :
    Rooted { fs with root := tree } root R := by
  have hstanding : Files.IsStanding { fs with root := tree } := by
    obtain ⟨node, hnode⟩ := Option.ne_none_iff_exists'.1 h.standing
    obtain ⟨c, hc, -⟩ := hext.entry hnode
    exact Option.ne_none_iff_exists'.2 ⟨c, hc⟩
  obtain ⟨node, hfind⟩ := h.leads
  obtain ⟨hpath, hleads⟩ := (Files.find_eq_ok h.standing).1 hfind
  obtain ⟨node', hleads'⟩ := hleads.of_extends hext rfl
  exact ⟨hstanding, ⟨node', (Files.find_eq_ok hstanding).2 ⟨hpath, hleads'⟩⟩,
    h.searchable.of_extends hext⟩

theorem isPath_below (h : Rooted fs root R) (hp : Named p)
    (hsize : (Path.below root (relative p)).utf8ByteSize ≤ Files.greatestPath) :
    IsPath (Path.below root (relative p)) := by
  obtain ⟨n, hbased⟩ := h.exists_based
  exact hbased.isPath_below hp.parted (fun name hname ↦ (hp name hname).nul) hsize

/-- A path below a root leads on from where the root leads. -/
theorem find_below (h : Rooted fs root R) (follow : Bool) (hp : Named (p ++ [name]))
    (hsize : (Path.below root (relative (p ++ [name]))).utf8ByteSize ≤ Files.greatestPath) :
    ∃ jump, fs.find follow (Path.below root (relative (p ++ [name]))) =
      Files.walkOn fs.root follow jump R (p ++ [name]) := by
  obtain ⟨n, hbased⟩ := h.exists_based
  exact hbased.find_below follow hp.parted (h.isPath_below hp hsize)

section Passable

variable (h : Rooted fs root R) (hp : Named (p ++ [name]))
  (hsize : (Path.below root (relative (p ++ [name]))).utf8ByteSize ≤ Files.greatestPath)
  (hpass : Passable fs.root R p)

include h hp hsize hpass

theorem find_vacant (follow : Bool) (hnone : fs.root.at? (R ++ p ++ [name]) = none) :
    fs.find follow (Path.below root (relative (p ++ [name]))) = .ok (.vacant (R ++ p ++ [name])) := by
  obtain ⟨jump, hjump⟩ := h.find_below follow hp hsize
  rw [hjump, Files.walkOn_along hpass hp.of_append_left,
    Files.walkOn_entry (hpass p List.prefix_rfl) (Files.isEntryStep_of_isName hp.last), hnone]
  rfl

theorem find_present (follow : Bool) {c : Node} (hc : fs.root.at? (R ++ p ++ [name]) = some c)
    (hlink : c.isLink = false) :
    fs.find follow (Path.below root (relative (p ++ [name]))) =
      .ok (.present (R ++ p ++ [name]) c) := by
  obtain ⟨jump, hjump⟩ := h.find_below follow hp hsize
  have hne : fs.root.at? (R ++ p ++ [name]) ≠ none := by rw [hc]; exact Option.some_ne_none c
  obtain ⟨c', hc', hend⟩ := Files.walkOn_nil follow jump hne
  obtain rfl : c' = c := Option.some.inj (hc'.symm.trans hc)
  rw [hjump, Files.walkOn_along hpass hp.of_append_left,
    Files.walkOn_entry (hpass p List.prefix_rfl) (Files.isEntryStep_of_isName hp.last), hc]
  cases c' with
  | link target => exact nomatch hlink
  | file m b i => exact hend
  | directory m es => exact hend
  | device d => exact hend

end Passable

/-- Where a directory on the way is missing, nothing is found. -/
theorem find_missing (h : Rooted fs root R) (follow : Bool) {above : Place} {missing : String}
    (hp : Named (above ++ missing :: p ++ [name]))
    (hsize : (Path.below root (relative (above ++ missing :: p ++ [name]))).utf8ByteSize ≤
      Files.greatestPath)
    (hpass : Passable fs.root R above) (hnone : fs.root.at? (R ++ above ++ [missing]) = none) :
    fs.find follow (Path.below root (relative (above ++ missing :: p ++ [name]))) =
      .error .notFound := by
  obtain ⟨jump, hjump⟩ := h.find_below follow hp hsize
  have habove : Named above := hp.of_append_left.of_append_left
  have hmissing : IsName missing := hp.of_append_left missing (by simp)
  rw [hjump, List.append_assoc, List.cons_append, Files.walkOn_along hpass habove,
    Files.walkOn_entry (hpass above List.prefix_rfl) (Files.isEntryStep_of_isName hmissing), hnone]
  simp

/-- Above a name in the root is a directory. -/
theorem isDirectory_parent (h : Rooted fs root R) (hname : IsName name) :
    ∃ parent, Path.parent? (Path.below root (relative [name])) = some parent ∧
      fs.isDirectory parent = true := by
  obtain ⟨n, hbased⟩ := h.exists_based
  exact hbased.isDirectory_parent hname.isPart

end Rooted

end Transfer
end FirmwareLane
