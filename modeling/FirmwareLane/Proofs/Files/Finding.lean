import FirmwareLane.Proofs.Files.Walk
import FirmwareLane.Proofs.Paths

/-!
# What a path leads to, and what writing there does

A path is followed from the root or from the directory where relative paths begin, if it is one that
can be followed at all: it is a text without a character that ends it, not empty, and not too long.

`isStanding` says that the directory where relative paths begin is still in the tree.  A path that
leads to a directory is one that making it, with all the directories above it, leaves alone
(`createAll_of_isDirectory`).

A file is written where a path leads: over the bytes of the file that is there, if it may be
written, or as a new file, if the directory above lets it be made.  Either way the tree grows.
-/

set_option autoImplicit false
namespace FirmwareLane
namespace Files

/-- The directory where relative paths begin is in the tree. -/
def IsStanding (fs : Files) : Prop := fs.root.at? fs.here ≠ none

/-- A text that can be followed as a path. -/
structure IsPath (path : String) : Prop where
  nul : '\x00' ∉ path.toList
  nonempty : path ≠ ""
  size : path.utf8ByteSize ≤ greatestPath

/-- What a path begins with is a path too, if it is not empty. -/
theorem IsPath.of_isPrefix {path front : String} (h : IsPath path) (hne : front ≠ "")
    (hfront : front.toList <+: path.toList) : IsPath front where
  nul hmem := h.nul (hfront.subset hmem)
  nonempty := hne
  size := (Path.utf8ByteSize_le_of_isPrefix hfront).trans h.size

/-- Why a text that is not empty cannot be followed as a path, if it cannot. -/
def unusable? (path : String) : Option Fault :=
  if path.toList.contains '\x00' then some .unnameable
  else if greatestPath < path.utf8ByteSize then some .nameTooLong
  else none

/-- Where a path begins. -/
def start (fs : Files) (path : String) : Place := if isAbsolute path then [] else fs.here

/-- A file system as it can be: directories have proper entries, all files of one identity are the
same one, and relative paths begin somewhere. -/
structure Sound (fs : Files) : Prop where
  tree : fs.root.Sound
  shared : ∀ {p q : Place} {m m' i : Nat} {b b' : Text.Bytes}, i ≠ 0 →
    fs.root.at? p = some (.file m b i) → fs.root.at? q = some (.file m' b' i) → m = m' ∧ b = b'
  standing : fs.IsStanding

variable {fs : Files} {follow : Bool} {path : String}

/-- A path leads to one place only. -/
theorem present_unique {p q : Place} {n c : Node} (h : fs.find follow path = .ok (.present p n))
    (h' : fs.find follow path = .ok (.present q c)) : p = q ∧ n = c :=
  Target.present.inj (Except.ok.inj (h.symm.trans h'))

/-- Where no file has an identity no two files are the same one. -/
theorem sound_of_identities (htree : fs.root.Sound)
    (hidentities : ∀ visit ∈ fs.root.visits, visit.2.identity = 0) (hstanding : fs.IsStanding) :
    fs.Sound where
  tree := htree
  shared hi hp _ := absurd (hidentities _ ((Node.mem_visits htree).2 hp)) hi
  standing := hstanding

theorem walkFromHere_of_isStanding (h : fs.IsStanding) (names : List String) :
    fs.walkFromHere follow names = walk fs.root follow greatestLinks fs.here names := by
  obtain ⟨node, hnode⟩ := Option.ne_none_iff_exists'.1 h
  simp only [walkFromHere, hnode]

theorem find_of_isPath (h : fs.IsStanding) (hpath : IsPath path) :
    fs.find follow path = walk fs.root follow greatestLinks (fs.start path) (steps path) := by
  have hnul : path.toList.contains '\x00' = false := by
    rw [List.contains_eq_mem, decide_eq_false_iff_not]
    exact hpath.nul
  have hempty : path.isEmpty = false := String.isEmpty_eq_false_iff.2 hpath.nonempty
  rw [find, start, walkFromHere_of_isStanding h]
  simp only [hnul, hempty, Bool.false_eq_true, if_false, if_neg (Nat.not_lt.2 hpath.size)]
  split <;> rfl

theorem isPath_of_find {t : Target} (h : fs.find follow path = .ok t) : IsPath path := by
  rw [find] at h
  split at h
  · exact nomatch h
  · next hnul =>
    split at h
    · exact nomatch h
    · next hempty =>
      split at h
      · exact nomatch h
      · next hsize =>
        refine ⟨?_, fun heq ↦ hempty (String.isEmpty_iff.2 heq), Nat.not_lt.1 hsize⟩
        rwa [List.contains_eq_mem, decide_eq_true_eq] at hnul

theorem isPath_of_unusable? (hne : path ≠ "") (h : unusable? path = none) : IsPath path := by
  rw [unusable?] at h
  split_ifs at h with hnul hlong
  rw [List.contains_eq_mem, decide_eq_true_eq] at hnul
  exact ⟨hnul, hne, Nat.not_lt.1 hlong⟩

theorem find_of_unusable? {fault : Fault} (hne : path ≠ "") (h : unusable? path = some fault) :
    fs.find follow path = .error fault := by
  rw [unusable?] at h
  rw [find, String.isEmpty_eq_false_iff.2 hne]
  simp only [Bool.false_eq_true, if_false]
  split_ifs at h ⊢ with hnul hlong
  · exact congrArg _ (Option.some.inj h)
  · exact congrArg _ (Option.some.inj h)

/-- **What a path leads to is what its steps lead to.** -/
theorem find_eq_ok (h : fs.IsStanding) {t : Target} :
    fs.find follow path = .ok t ↔
      IsPath path ∧ Leads fs.root follow greatestLinks (fs.start path) (steps path) t := by
  refine ⟨fun hfind ↦ ?_, fun ⟨hpath, hleads⟩ ↦ ?_⟩
  · have hpath := isPath_of_find hfind
    rw [find_of_isPath h hpath] at hfind
    exact ⟨hpath, walk_eq_ok.1 hfind⟩
  · rw [find_of_isPath h hpath, hleads.walk_eq]

/-- What is found in a sound tree is sound, even where the directory that relative paths begin at
is gone. -/
theorem sound_of_find (h : fs.root.Sound) {place : Place} {node : Node}
    (hfind : fs.find follow path = .ok (.present place node)) : node.Sound := by
  have hwalk : ∀ {p : Place} {names : List String},
      walk fs.root follow greatestLinks p names = .ok (.present place node) → node.Sound :=
    fun hw ↦ (h.at? ((walk_eq_ok.1 hw).at? rfl)).2
  rw [find] at hfind
  split_ifs at hfind
  · exact hwalk hfind
  · rw [walkFromHere] at hfind
    split at hfind
    · cases hfind
      exact Node.sound_emptyDirectory
    · exact hwalk hfind
    · exact nomatch hfind
    · exact hwalk hfind

theorem present_eq_ok {place : Place} {node : Node} :
    fs.present follow path = .ok (place, node) ↔
      fs.find follow path = .ok (.present place node) := by
  rw [present]
  split
  · next p n h => rw [h]; simp
  · next p h => rw [h]; simp
  · next fault h => rw [h]; simp

theorem isDirectory_iff :
    fs.isDirectory path = true ↔
      ∃ place m es, fs.find true path = .ok (.present place (.directory m es)) := by
  rw [isDirectory, node]
  constructor
  · intro h
    cases hp : fs.present true path with
    | error fault => rw [hp] at h; exact nomatch h
    | ok found =>
      obtain ⟨place, n⟩ := found
      rw [hp] at h
      cases n with
      | directory m es => exact ⟨place, m, es, present_eq_ok.1 hp⟩
      | file m b i => exact nomatch h
      | link target => exact nomatch h
      | device d => exact nomatch h
  · rintro ⟨place, m, es, hfind⟩
    rw [present_eq_ok.2 hfind]
    rfl

/-! ## A path and the same without the separators at its end -/

/-- The steps of a path: its names, and perhaps one that goes nowhere. -/
theorem steps_eq (path : String) :
    ∃ dots : List String, (∀ step ∈ dots, step = ".") ∧
      steps path = Path.names path.toList ++ dots := by
  refine ⟨_, fun step hstep ↦ ?_, rfl⟩
  split at hstep
  · exact List.mem_singleton.1 hstep
  · exact absurd hstep List.not_mem_nil

theorem steps_of_getLast? (h : path.toList.getLast? ≠ some '/') :
    steps path = Path.names path.toList := by
  simp only [steps, h, false_and, if_false, List.append_nil]
  rfl

/-- A name leads to what stands under it in the directory where relative paths begin. -/
theorem find_name (h : fs.IsStanding) {name : String} (hname : IsName name)
    (hhere : Searchable fs.root fs.here) {c : Node}
    (hc : fs.root.at? (fs.here ++ [name]) = some c) (hlink : c.isLink = false) :
    fs.find follow name = .ok (.present (fs.here ++ [name]) c) := by
  have hpath : IsPath name := ⟨hname.nul, hname.nonempty, hname.size.trans (by decide)⟩
  have hstart : fs.start name = fs.here := by
    refine if_neg fun habsolute ↦ hname.slash ?_
    exact List.mem_of_mem_head? (beq_iff_eq.1 habsolute)
  have hsteps : steps name = [name] := by
    rw [steps_of_getLast? fun hlast ↦ hname.slash (List.mem_of_getLast? hlast),
      Path.names_of_not_mem hname.nonempty hname.slash]
  rw [find_eq_ok h, hstart, hsteps]
  exact ⟨hpath, .into hhere (isEntryStep_of_isName hname) hc hlink (.present hc)⟩

theorem names_dropWhile_slash (reversed : List Char) :
    Path.names (reversed.dropWhile (· == '/')).reverse = Path.names reversed.reverse := by
  induction reversed with
  | nil => rfl
  | cons c rest ih =>
    by_cases hc : c = '/'
    · subst hc
      rw [List.dropWhile_cons_of_pos (by decide), ih, List.reverse_cons, Path.names_concat_slash]
    · rw [List.dropWhile_cons_of_neg (by simpa using hc)]

theorem withoutEnd_of_getLast? (h : path.toList.getLast? ≠ some '/') : withoutEnd path = path := by
  have hsame : path.toList.reverse.dropWhile (· == '/') = path.toList.reverse := by
    rw [List.getLast?_eq_head?_reverse] at h
    cases hreverse : path.toList.reverse with
    | nil => rfl
    | cons c rest =>
      rw [hreverse] at h
      exact List.dropWhile_cons_of_neg (by simpa using h)
  rw [withoutEnd, hsame, List.reverse_reverse, String.ofList_toList]
  split <;> rfl

/-- Without the separators at its end a path has the same names, and begins where it began. -/
theorem withoutEnd_eq (path : String) :
    withoutEnd path = path ∨
      (steps (withoutEnd path) = Path.names path.toList ∧
        isAbsolute (withoutEnd path) = isAbsolute path) := by
  rw [withoutEnd]
  split
  · exact .inl rfl
  · next hne =>
    have hfront := mt List.isEmpty_iff.2 hne
    have hnames := names_dropWhile_slash path.toList.reverse
    rw [List.reverse_reverse] at hnames
    have hshort : (path.toList.reverse.dropWhile (· == '/')).reverse <+: path.toList := by
      have := List.reverse_prefix.2 (List.dropWhile_suffix (l := path.toList.reverse) (· == '/'))
      rwa [List.reverse_reverse] at this
    refine .inr ⟨?_, ?_⟩
    · rw [steps_of_getLast?, String.toList_ofList, hnames]
      rw [String.toList_ofList, List.getLast?_reverse]
      intro hlast
      have := List.head?_dropWhile_not (· == '/') path.toList.reverse
      rw [hlast] at this
      exact absurd this (by decide)
    · obtain ⟨rest, hrest⟩ := hshort
      rw [isAbsolute, isAbsolute, String.toList_ofList]
      conv => rhs; rw [← hrest]
      rw [List.head?_append, List.head?_eq_some_head hfront, Option.some_or]

/-- A path that is not too long can be followed if it can be without the separators at its end. -/
theorem isPath_of_withoutEnd (h : IsPath (withoutEnd path)) (hsize : isTooLong path = false) :
    IsPath path := by
  have hnul : '\x00' ∉ path.toList := by
    intro hmem
    refine h.nul ?_
    rw [withoutEnd]
    split
    · exact hmem
    · have hsplit := List.takeWhile_append_dropWhile (p := (· == '/')) (l := path.toList.reverse)
      rw [String.toList_ofList, List.mem_reverse]
      rw [← List.mem_reverse, ← hsplit, List.mem_append] at hmem
      exact hmem.resolve_left fun hslash ↦ absurd (List.mem_takeWhile_imp hslash) (by decide)
  refine ⟨hnul, fun heq ↦ h.nonempty ?_, ?_⟩
  · rw [heq]
    decide
  rw [isTooLong, List.contains_eq_mem, decide_eq_false hnul] at hsize
  simpa using hsize

theorem isTooLong_eq_false (h : path.utf8ByteSize ≤ greatestPath) : isTooLong path = false := by
  rw [isTooLong, decide_eq_false (Nat.not_lt.2 h), Bool.and_false]

/-! ## Directories that are there -/

/-- **A path that leads to a directory is left alone when that directory is made.** -/
theorem ensured_of_isDirectory (h : fs.IsStanding) (hdir : fs.isDirectory path = true) :
    fs.ensured path = .ok fs := by
  obtain ⟨place, m, es, hfind⟩ := isDirectory_iff.1 hdir
  have hleads := ((find_eq_ok h).1 hfind).2
  have hvacant : ∀ p, fs.find false (withoutEnd path) ≠ .ok (.vacant p) := by
    intro p hp
    have hleads' := ((find_eq_ok h).1 hp).2.follow_of_vacant rfl
    rcases withoutEnd_eq path with heq | ⟨hsteps, habsolute⟩
    · rw [heq] at hleads'
      exact nomatch (hleads.walk_eq.symm.trans hleads'.walk_eq)
    · obtain ⟨dots, hdots, heq⟩ := steps_eq path
      have hnames := hleads.of_append rfl heq hdots rfl
      rw [hsteps, start, habsolute] at hleads'
      exact nomatch (hnames.walk_eq.symm.trans hleads'.walk_eq)
  rw [ensured, withDirectory, isTooLong_eq_false (isPath_of_find hfind).size]
  cases hfound : fs.find false (withoutEnd path) with
  | error fault => simp only [hdir, Bool.false_eq_true, if_false, if_true]
  | ok t =>
    cases t with
    | vacant p => exact absurd hfound (hvacant p)
    | present p n => simp only [hdir, Bool.false_eq_true, if_false, if_true]

theorem perform_become {ε : Type} {change : Files → Except ε Files} {fs' : Files}
    (h : change fs = .ok fs') :
    Action.perform (become change : Action ε Unit) fs = (.ok (), fs') := by
  rw [become, Action.perform_bind_ok (Action.perform_get fs), h]
  rfl

theorem createUpwards_of_ensured {fs' : Files} (hne : path ≠ "") (h : fs.ensured path = .ok fs')
    (levels : Nat) : Action.perform (createUpwards levels path) fs = (.ok (), fs') := by
  have hempty : path.isEmpty = false := String.isEmpty_eq_false_iff.2 hne
  cases levels with
  | zero => exact perform_become h
  | succ levels =>
    rw [createUpwards]
    simp only [hempty, Bool.false_eq_true, if_false]
    rw [Action.perform_bind_ok (Action.perform_get fs), h]
    rfl

/-- **A directory that is there is left alone when it is made with those above it.** -/
theorem createAll_of_isDirectory (h : fs.IsStanding) (hdir : fs.isDirectory path = true) :
    Action.perform (createAll path) fs = (.ok (), fs) := by
  obtain ⟨place, m, es, hfind⟩ := isDirectory_iff.1 hdir
  exact createUpwards_of_ensured (isPath_of_find hfind).nonempty (ensured_of_isDirectory h hdir) _

/-! ## Writing -/

open Action (perform)
open Text (Bytes)

/-- At a place is a directory that may be gone through, and entries may be added to it. -/
def Changeable (root : Node) (place : Place) : Prop :=
  ∃ m, root.faceAt? place = some (.directory m []) ∧
    (Node.directory m []).allows .write = true ∧ (Node.directory m []).allows .search = true

variable {place : Place} {name : String}

theorem Changeable.searchable {root : Node} (h : Changeable root place) : Searchable root place := by
  obtain ⟨m, hface, -, hsearch⟩ := h
  exact ⟨m, hface, hsearch⟩

theorem Changeable.mayChange (h : Changeable fs.root place) (name : String) :
    fs.mayChange (place ++ [name]) = true := by
  obtain ⟨m, hface, hwrite, hsearch⟩ := h
  obtain ⟨es, hplace⟩ := Node.faceAt?_eq_directory.1 hface
  rw [Files.mayChange, List.dropLast_concat, hplace]
  change ((Node.directory m []).allows .write && (Node.directory m []).allows .search) = true
  rw [hwrite, hsearch]
  rfl

theorem changeable_of_emptyDirectory {root : Node}
    (h : root.faceAt? place = some Node.emptyDirectory) : Changeable root place :=
  ⟨Node.directoryMode, h, by decide, by decide⟩

theorem perform_look {ε α : Type} (see : Files → Except ε α) :
    perform (look see : Action ε α) fs = (see fs, fs) := by
  rw [look, Action.perform_bind_ok (Action.perform_get fs)]
  cases see fs with
  | ok a => rfl
  | error e => rfl

/-- What writing does is told by what the path leads to. -/
theorem perform_write (fs : Files) (path : String) (b : Bytes) :
    perform (write path b) fs =
      match fs.find true path with
      | .ok (.vacant place) =>
        if fs.mayChange place then
          (.ok (), { fs with root := fs.root.put place (.file Node.fileMode b 0) })
        else (.error .denied, fs)
      | .ok (.present place (.file m c i)) =>
        if (Node.file m c i).allows .write then
          (.ok (), { fs with root := fs.root.alterFile place (Node.withBytes b) })
        else (.error .denied, fs)
      | .ok (.present _ (.directory _ _)) => (.error .isDirectory, fs)
      | .ok (.present _ _) => (.ok (), fs)
      | .error fault => (.error fault, fs) := by
  rw [write, Action.perform_bind, perform_look]
  cases fs.find true path with
  | error fault => rfl
  | ok t =>
    cases t with
    | vacant place =>
      dsimp only
      rw [Action.perform_bind_ok (Action.perform_get fs)]
      cases fs.mayChange place <;> rfl
    | present place c =>
      cases c with
      | file m c i => dsimp only; cases (Node.file m c i).allows .write <;> rfl
      | directory m es => rfl
      | link target => rfl
      | device d => rfl

/-! ## Over a file that is there -/

theorem write_present {m i : Nat} {c : Bytes}
    (hfind : fs.find true path = .ok (.present place (.file m c i)))
    (hwrite : (Node.file m c i).allows .write = true) (b : Bytes) :
    perform (write path b) fs =
      (.ok (), { fs with root := fs.root.alterFile place (Node.withBytes b) }) := by
  rw [perform_write, hfind]
  simp only [hwrite, if_true]

theorem write_denied {m i : Nat} {c : Bytes}
    (hfind : fs.find true path = .ok (.present place (.file m c i)))
    (hwrite : (Node.file m c i).allows .write = false) (b : Bytes) :
    perform (write path b) fs = (.error .denied, fs) := by
  rw [perform_write, hfind]
  simp only [hwrite, Bool.false_eq_true, if_false]

/-! ## Where nothing was -/

theorem write_vacant (hfind : fs.find true path = .ok (.vacant (place ++ [name])))
    (hchange : Changeable fs.root place) (b : Bytes) :
    perform (write path b) fs =
      (.ok (), { fs with root := fs.root.put (place ++ [name]) (.file Node.fileMode b 0) }) := by
  rw [perform_write, hfind]
  simp only [hchange.mayChange, if_true]

theorem ensured_vacant (hsize : path.utf8ByteSize ≤ greatestPath)
    (hfind : fs.find false (withoutEnd path) = .ok (.vacant (place ++ [name])))
    (hchange : Changeable fs.root place) :
    fs.ensured path =
      .ok { fs with root := fs.root.put (place ++ [name]) Node.emptyDirectory } := by
  have hmade : fs.withDirectory path =
      .ok { fs with root := fs.root.put (place ++ [name]) Node.emptyDirectory } := by
    rw [withDirectory, isTooLong_eq_false hsize, hfind]
    simp only [hchange.mayChange, Bool.false_eq_true, if_false, if_true]
  rw [ensured, hmade]

/-- What is written succeeds only under a path that can be followed. -/
theorem isPath_of_write {b : Bytes} {fs' : Files} (h : perform (write path b) fs = (.ok (), fs')) :
    IsPath path := by
  cases hfind : fs.find true path with
  | ok t => exact isPath_of_find hfind
  | error fault =>
    rw [perform_write, hfind] at h
    exact nomatch (Prod.mk.inj h).1

end Files
end FirmwareLane
