import FirmwareLane.Proofs.Files.Finding
import FirmwareLane.Proofs.Files.Within

/-!
# Making a directory with those above it

A directory is made with the missing ones above it by going up the path until one of them can be
made, and down again.  `Makes` says so step by step.  Three things follow by induction on the steps:

* Whether it succeeds or not, nothing but empty directories is made, and only where nothing was
  (`Makes.furnishes`).
* If it succeeds, the path leads to a directory (`Makes.isDirectory`).
* If it fails, trying again fails too, and makes nothing more (`Makes.again`).

`Readies` says of the files afterwards that they are those before with some of these directories
(`readies_createAll`).
-/

set_option autoImplicit false
namespace FirmwareLane

/-- A path is another or one of those above it. -/
inductive Path.IsAbove (above : String) : String → Prop
  | self : IsAbove above above
  | step {path parent : String} (h : Path.parent? path = some parent)
      (more : IsAbove above parent) : IsAbove above path

namespace Files

open Action (perform)

/-! ## One directory -/

/-- Files that are others with empty directories where nothing was. -/
structure Furnishes (fs fs' : Files) : Prop where
  here_eq : fs'.here = fs.here
  kept : ∀ q c, fs.root.faceAt? q = some c → fs'.root.faceAt? q = some c
  made : ∀ q, fs.root.faceAt? q = none →
    fs'.root.faceAt? q = none ∨ fs'.root.faceAt? q = some Node.emptyDirectory
  tree : fs.root.Sound → fs'.root.Sound

namespace Furnishes

variable {fs fs' fs'' : Files}

theorem refl (fs : Files) : Furnishes fs fs := ⟨rfl, fun _ _ h ↦ h, fun _ h ↦ .inl h, id⟩

theorem trans (h : Furnishes fs fs') (h' : Furnishes fs' fs'') : Furnishes fs fs'' where
  here_eq := h'.here_eq.trans h.here_eq
  kept q c hc := h'.kept q c (h.kept q c hc)
  made q hq := by
    rcases h.made q hq with hnone | hmade
    · exact h'.made q hnone
    · exact .inr (h'.kept q _ hmade)
  tree hs := h'.tree (h.tree hs)

theorem extends_root (h : Furnishes fs fs') : fs.root.Extends fs'.root :=
  fun q c hc ↦ ⟨c, h.kept q c hc, rfl⟩

theorem standing (h : Furnishes fs fs') (hs : fs.IsStanding) : fs'.IsStanding := by
  obtain ⟨node, hnode⟩ := Option.ne_none_iff_exists'.1 hs
  obtain ⟨c, hc, -⟩ := h.extends_root.entry hnode
  rw [IsStanding, h.here_eq, hc]
  exact Option.some_ne_none c

/-- A path still leads where it led. -/
theorem exists_find (h : Furnishes fs fs') (hs : fs.IsStanding) {path : String} {q : Place}
    {node : Node} (hfind : fs.find true path = .ok (.present q node)) :
    ∃ node', fs'.find true path = .ok (.present q node') := by
  obtain ⟨hpath, hleads⟩ := (find_eq_ok hs).1 hfind
  obtain ⟨node', hleads'⟩ := hleads.of_extends h.extends_root rfl
  refine ⟨node', (find_eq_ok (h.standing hs)).2 ⟨hpath, ?_⟩⟩
  rw [start, h.here_eq]
  exact hleads'

end Furnishes

variable {fs fs' mid : Files} {path : String}

/-- A step of a path that asks for an entry is a name. -/
theorem isName_of_mem_steps (hpath : IsPath path) {step : String} (hmem : step ∈ steps path)
    (hstep : IsEntryStep step) : IsName step := by
  have hpiece : ∃ piece ∈ Text.splitOn '/' path.toList, piece ≠ [] ∧ step = String.ofList piece := by
    rcases List.mem_append.1 hmem with h | h
    · obtain ⟨piece, hpiece, rfl⟩ := List.mem_map.1 h
      obtain ⟨hpiece, hne⟩ := List.mem_filter.1 hpiece
      exact ⟨piece, hpiece, by simpa using hne, rfl⟩
    · split at h
      · exact absurd (List.mem_singleton.1 h) hstep.notHere
      · exact absurd h List.not_mem_nil
  obtain ⟨piece, hpiece, hne, rfl⟩ := hpiece
  refine ⟨fun heq ↦ hne (String.ofList_eq_empty_iff.1 heq), ?_, ?_, hstep.notHere, hstep.notAbove,
    hstep.size⟩
  · rw [String.toList_ofList]
    exact Path.not_mem_of_mem_splitOn hpiece
  · rw [String.toList_ofList]
    exact fun hnul ↦ hpath.nul (Path.mem_of_mem_splitOn hpiece hnul)

/-- **A directory is made where nothing was, under a name in a directory that lets it be made.** -/
theorem exists_of_withDirectory (h : fs.IsStanding) (hmade : fs.withDirectory path = .ok fs') :
    ∃ p name, fs.find false (withoutEnd path) = .ok (.vacant (p ++ [name])) ∧ IsPath path ∧
      Changeable fs.root p ∧ IsName name ∧ fs.root.at? (p ++ [name]) = none ∧
      fs' = fs.within (p ++ [name]) Node.emptyDirectory := by
  rw [withDirectory] at hmade
  split at hmade
  · cases hmade
  · next hlong =>
    split at hmade
    · next P hfind =>
      split at hmade
      · next hmay =>
        obtain rfl := Except.ok.inj hmade
        obtain ⟨hpath, hleads⟩ := (find_eq_ok h).1 hfind
        obtain ⟨p, name, rfl, hsearch, hstep, hnone, hlast⟩ := hleads.exists_of_vacant rfl
        obtain ⟨m, es, hp, -⟩ := searchable_iff.1 hsearch
        rw [mayChange, List.dropLast_concat, hp] at hmay
        obtain ⟨hwrite, hallows⟩ := (Bool.and_eq_true _ _).mp hmay
        exact ⟨p, name, hfind, isPath_of_withoutEnd hpath (Bool.eq_false_iff.2 hlong),
          ⟨m, Node.faceAt?_eq_directory.2 ⟨es, hp⟩, hwrite, hallows⟩,
          isName_of_mem_steps hpath (List.mem_of_getLast? (hlast rfl)) hstep, hnone, rfl⟩
      · cases hmade
    · cases hmade
    · cases hmade

theorem furnishes_within {p : Place} {name : String} {m : Nat} {es : List (String × Node)}
    (hp : fs.root.at? p = some (.directory m es)) (hname : IsName name)
    (hnone : fs.root.at? (p ++ [name]) = none) :
    Furnishes fs (fs.within (p ++ [name]) Node.emptyDirectory) where
  here_eq := rfl
  kept _ _ hc := Node.faceAt?_put_of_eq_some hp rfl hnone rfl hc
  made q hq := by
    rw [root_within, Node.faceAt?_put hp rfl hnone rfl]
    split
    · exact .inr rfl
    · exact .inl hq
  tree hs := by
    refine hs.put (fun n hn ↦ ?_) Node.sound_emptyDirectory
    rcases List.mem_append.1 hn with hn | hn
    · exact (hs.at? hp).1 n hn
    · exact List.mem_singleton.1 hn ▸ hname

theorem furnishes_withDirectory (h : fs.IsStanding) (hmade : fs.withDirectory path = .ok fs') :
    Furnishes fs fs' := by
  obtain ⟨p, name, -, -, hchange, hname, hnone, rfl⟩ := exists_of_withDirectory h hmade
  obtain ⟨m, es, hp, -⟩ := searchable_iff.1 hchange.searchable
  exact furnishes_within hp hname hnone

/-- **A path that a directory was made at leads to that directory.** -/
theorem find_of_withDirectory (h : fs.IsStanding) (hmade : fs.withDirectory path = .ok fs')
    {P : Place} (hfind : fs.find false (withoutEnd path) = .ok (.vacant P)) :
    fs'.find true path = .ok (.present P Node.emptyDirectory) := by
  obtain ⟨p, name, hfind', hpath, hchange, hname, hnone, heq⟩ := exists_of_withDirectory h hmade
  obtain rfl : P = p ++ [name] := Target.vacant.inj (Except.ok.inj (hfind.symm.trans hfind'))
  obtain ⟨m, es, hp, -⟩ := searchable_iff.1 hchange.searchable
  have hfurnishes := furnishes_withDirectory h hmade
  have hstanding := hfurnishes.standing h
  have hthere : fs'.root.at? (p ++ [name]) = some Node.emptyDirectory := by
    rw [heq]
    exact (Node.Holds.entry hp name).at?_put _
  have hleads := (((find_eq_ok h).1 hfind).2.follow_of_vacant rfl).of_vacant
    hfurnishes.extends_root rfl hthere rfl
  have hstart : ∀ path : String, fs'.start path = fs.start path :=
    fun path ↦ by rw [start, start, hfurnishes.here_eq]
  rcases withoutEnd_eq path with hsame | ⟨hsteps, habsolute⟩
  · rw [hsame, ← hstart] at hleads
    exact (find_eq_ok hstanding).2 ⟨hpath, hleads⟩
  · -- the separators at the end ask for a directory, and there is one
    obtain ⟨dots, hdots, hsame⟩ := steps_eq path
    rw [hsteps, ← hstart, start, habsolute] at hleads
    obtain ⟨jump, hjump⟩ := walk_append hleads rfl (.inr rfl : dots ≠ [] ∨ true = true)
    have hsearch : Searchable fs'.root (p ++ [name]) :=
      searchable_iff.2 ⟨_, _, hthere, by decide⟩
    rw [find_of_isPath hstanding hpath, hsame, ← walkOn_dots hsearch hthere hdots, ← hjump]
    rfl

/-! ## A directory that may be there already -/

theorem ensured_eq_ok (h : fs.ensured path = .ok fs') :
    fs.withDirectory path = .ok fs' ∨ (fs' = fs ∧ fs.isDirectory path = true) := by
  rw [ensured] at h
  split at h
  · next hmade => exact .inl (hmade.trans h)
  · split at h
    · next hdir => exact .inr ⟨(Except.ok.inj h).symm, hdir⟩
    · cases h

theorem furnishes_ensured (h : fs.IsStanding) (hensured : fs.ensured path = .ok fs') :
    Furnishes fs fs' := by
  rcases ensured_eq_ok hensured with hmade | ⟨rfl, -⟩
  · exact furnishes_withDirectory h hmade
  · exact .refl fs'

theorem isDirectory_of_ensured (h : fs.IsStanding) (hensured : fs.ensured path = .ok fs') :
    fs'.isDirectory path = true := by
  rcases ensured_eq_ok hensured with hmade | ⟨rfl, hdir⟩
  · obtain ⟨p, name, hfind, -⟩ := exists_of_withDirectory h hmade
    exact isDirectory_iff.2 ⟨_, _, _, find_of_withDirectory h hmade hfind⟩
  · exact hdir

/-- What is made is what the path leads to. -/
theorem exists_isAbove_of_ensured (h : fs.IsStanding) (hensured : fs.ensured path = .ok fs')
    {q : Place} (hnone : fs.root.faceAt? q = none) (hmade : fs'.root.faceAt? q ≠ none) :
    ∃ a node, Path.IsAbove a path ∧ fs'.find true a = .ok (.present q node) := by
  rcases ensured_eq_ok hensured with hdir | ⟨rfl, -⟩
  · obtain ⟨p, name, hfind, -, hchange, -, hvacant, heq⟩ := exists_of_withDirectory h hdir
    obtain ⟨m, es, hp, -⟩ := searchable_iff.1 hchange.searchable
    have hq : q = p ++ [name] := by
      by_contra hne
      rw [heq, root_within, Node.faceAt?_put hp rfl hvacant rfl, if_neg hne] at hmade
      exact hmade hnone
    exact ⟨path, _, .self, hq ▸ find_of_withDirectory h hdir hfind⟩
  · exact absurd hnone hmade

theorem ne_empty_of_ensured (hensured : fs.ensured path = .ok fs') : path ≠ "" := by
  rintro rfl
  have hfind : ∀ follow, fs.find follow "" = .error .notFound := fun _ ↦ rfl
  rw [ensured, withDirectory, show isTooLong "" = false by decide,
    show withoutEnd "" = "" by decide, hfind, isDirectory, node, present, hfind] at hensured
  cases hensured

/-- Above a directory that is there or can be made is a directory. -/
theorem isDirectory_parent_of_ensured (h : fs.IsStanding) (hensured : fs.ensured path = .ok fs')
    {parent : String} (hparent : Path.parent? path = some parent) (hne : parent ≠ "") :
    fs.isDirectory parent = true := by
  obtain ⟨hfront, rest, hrest, hnames⟩ := Path.names_parent? hparent
  -- a walk along the names of the path
  obtain ⟨t, more, hpath, hmore, hleads⟩ : ∃ t more, IsPath path ∧ more ≠ [] ∧
      Leads fs.root true greatestLinks (fs.start path) (Path.names parent.toList ++ more) t := by
    obtain ⟨dots, hdots, hsteps⟩ := steps_eq path
    rcases ensured_eq_ok hensured with hmade | ⟨-, hdir⟩
    · obtain ⟨p, name, hfind, hpath, -⟩ := exists_of_withDirectory h hmade
      have hleads := ((find_eq_ok h).1 hfind).2.follow_of_vacant rfl
      rcases withoutEnd_eq path with hsame | ⟨hsteps', habsolute⟩
      · rw [hsame, hsteps, hnames, List.append_assoc] at hleads
        exact ⟨_, rest ++ dots, hpath, List.append_ne_nil_of_left_ne_nil hrest _, hleads⟩
      · rw [hsteps', hnames, start, habsolute] at hleads
        exact ⟨_, rest, hpath, hrest, hleads⟩
    · obtain ⟨place, m, es, hfind⟩ := isDirectory_iff.1 hdir
      obtain ⟨hpath, hleads⟩ := (find_eq_ok h).1 hfind
      rw [hsteps, hnames, List.append_assoc] at hleads
      exact ⟨_, rest ++ dots, hpath, List.append_ne_nil_of_left_ne_nil hrest _, hleads⟩
  obtain ⟨R, m, es, hsearch, hleads⟩ := hleads.of_append_ne_nil rfl rfl hmore
  -- the path of the directory above goes as far
  have hisPath : IsPath parent := hpath.of_isPrefix hne hfront
  have habsolute : isAbsolute parent = isAbsolute path := by
    obtain ⟨tail, htail⟩ := hfront
    have hne' : parent.toList ≠ [] := fun heq ↦ hne (String.toList_eq_nil_iff.1 heq)
    rw [isAbsolute, isAbsolute, ← htail, List.head?_append, List.head?_eq_some_head hne',
      Option.some_or]
  obtain ⟨dots, hdots, hsteps⟩ := steps_eq parent
  obtain ⟨jump, hjump⟩ := walk_append hleads rfl (.inr rfl : dots ≠ [] ∨ true = true)
  refine isDirectory_iff.2 ⟨R, m, es, ?_⟩
  rw [find_of_isPath h hisPath, hsteps, start, habsolute,
    ← walkOn_dots hsearch (hleads.at? rfl) hdots, ← hjump]
  rfl

/-! ## All the directories above -/

/-- What making a directory with those at most so many levels above it comes to, step by step. -/
inductive Makes : Nat → Files → String → Except Fault Unit → Files → Prop
  | nothing {levels : Nat} {fs : Files} : Makes (levels + 1) fs "" (.ok ()) fs
  | there {levels : Nat} {fs fs' : Files} {path : String} (h : fs.ensured path = .ok fs') :
      Makes levels fs path (.ok ()) fs'
  | fails {levels : Nat} {fs : Files} {path : String} {e : Fault} (h : fs.ensured path = .error e)
      (hend : levels = 0 ∨ path ≠ "" ∧ (e ≠ .notFound ∨ Path.parent? path = none)) :
      Makes levels fs path (.error e) fs
  | aboveFails {levels : Nat} {fs mid : Files} {path parent : String} {e : Fault}
      (hpath : path ≠ "") (h : fs.ensured path = .error .notFound)
      (hparent : Path.parent? path = some parent) (more : Makes levels fs parent (.error e) mid) :
      Makes (levels + 1) fs path (.error e) mid
  | after {levels : Nat} {fs mid fs' : Files} {path parent : String}
      (hpath : path ≠ "") (h : fs.ensured path = .error .notFound)
      (hparent : Path.parent? path = some parent) (more : Makes levels fs parent (.ok ()) mid)
      (hend : mid.ensured path = .ok fs') : Makes (levels + 1) fs path (.ok ()) fs'
  | afterFails {levels : Nat} {fs mid : Files} {path parent : String} {e : Fault}
      (hpath : path ≠ "") (h : fs.ensured path = .error .notFound)
      (hparent : Path.parent? path = some parent) (more : Makes levels fs parent (.ok ()) mid)
      (hend : mid.ensured path = .error e) : Makes (levels + 1) fs path (.error e) mid

theorem perform_become_error {ε : Type} {change : Files → Except ε Files} {e : ε}
    (h : change fs = .error e) :
    perform (become change : Action ε Unit) fs = (.error e, fs) := by
  rw [become, Action.perform_bind_ok (Action.perform_get fs), h]
  rfl

/-- Nothing is made where the directory cannot be, and going up does not help. -/
theorem createUpwards_of_error {levels : Nat} {e : Fault} (h : fs.ensured path = .error e)
    (hend : levels = 0 ∨ path ≠ "" ∧ (e ≠ .notFound ∨ Path.parent? path = none)) :
    perform (createUpwards levels path) fs = (.error e, fs) := by
  cases levels with
  | zero => exact perform_become_error h
  | succ levels =>
    obtain ⟨hpath, hend⟩ := hend.resolve_left (Nat.succ_ne_zero levels)
    rw [createUpwards]
    simp only [String.isEmpty_eq_false_iff.2 hpath, Bool.false_eq_true, if_false]
    rw [Action.perform_bind_ok (Action.perform_get fs), h]
    rcases hend with he | hparent
    · cases e <;> first | exact absurd rfl he | rfl
    · rw [hparent]
      cases e <;> rfl

/-- Where the directory above is missing, that one is made first. -/
theorem createUpwards_of_notFound {parent : String} (hpath : path ≠ "")
    (h : fs.ensured path = .error .notFound) (hparent : Path.parent? path = some parent)
    (levels : Nat) :
    perform (createUpwards (levels + 1) path) fs =
      match perform (createUpwards levels parent) fs with
      | (.ok (), mid) => perform (become fun fs ↦ fs.ensured path) mid
      | (.error e, mid) => (.error e, mid) := by
  rw [createUpwards]
  simp only [String.isEmpty_eq_false_iff.2 hpath, Bool.false_eq_true, if_false]
  rw [Action.perform_bind_ok (Action.perform_get fs), h]
  simp only [hparent]
  rw [Action.perform_bind]
  rcases perform (createUpwards levels parent) fs with ⟨_ | _, mid⟩ <;> rfl

/-- What is made is told by its steps. -/
theorem makes_perform (levels : Nat) (fs : Files) (path : String) :
    Makes levels fs path (perform (createUpwards levels path) fs).1
      (perform (createUpwards levels path) fs).2 := by
  induction levels generalizing fs path with
  | zero =>
    cases h : fs.ensured path with
    | ok fs' => rw [createUpwards_of_ensured (ne_empty_of_ensured h) h]; exact .there h
    | error e => rw [createUpwards_of_error h (.inl rfl)]; exact .fails h (.inl rfl)
  | succ levels ih =>
    by_cases hpath : path = ""
    · subst hpath
      exact .nothing
    cases h : fs.ensured path with
    | ok fs' => rw [createUpwards_of_ensured hpath h]; exact .there h
    | error e =>
      by_cases hend : e ≠ .notFound ∨ Path.parent? path = none
      · rw [createUpwards_of_error h (.inr ⟨hpath, hend⟩)]
        exact .fails h (.inr ⟨hpath, hend⟩)
      · obtain ⟨rfl, hparent⟩ := (not_or.1 hend).imp_left not_not.1
        obtain ⟨parent, hparent⟩ := Option.ne_none_iff_exists'.1 hparent
        have hmore := ih fs parent
        rw [createUpwards_of_notFound hpath h hparent]
        rcases hrest : perform (createUpwards levels parent) fs with ⟨e | _, mid⟩
        · rw [hrest] at hmore
          exact .aboveFails hpath h hparent hmore
        · rw [hrest] at hmore
          dsimp only
          cases hend : mid.ensured path with
          | ok fs' => rw [perform_become hend]; exact .after hpath h hparent hmore hend
          | error e => rw [perform_become_error hend]; exact .afterFails hpath h hparent hmore hend

namespace Makes

variable {levels : Nat} {result : Except Fault Unit}

/-- **Nothing is made but empty directories where nothing was**, even where making fails. -/
theorem furnishes (h : Makes levels fs path result fs') (hs : fs.IsStanding) :
    Furnishes fs fs' := by
  induction h with
  | nothing => exact .refl _
  | there h => exact furnishes_ensured hs h
  | fails _ _ => exact .refl _
  | aboveFails _ _ _ _ ih => exact ih hs
  | after _ _ _ _ hend ih => exact (ih hs).trans (furnishes_ensured ((ih hs).standing hs) hend)
  | afterFails _ _ _ _ _ ih => exact ih hs

/-- **What was made is a directory.** -/
theorem isDirectory (h : Makes levels fs path result fs') (hs : fs.IsStanding)
    (hok : result = .ok ()) (hpath : path ≠ "") : fs'.isDirectory path = true := by
  cases h with
  | nothing => exact absurd rfl hpath
  | there h => exact isDirectory_of_ensured hs h
  | fails _ _ => exact nomatch hok
  | aboveFails _ _ _ _ => exact nomatch hok
  | after _ _ _ more hend => exact isDirectory_of_ensured ((more.furnishes hs).standing hs) hend
  | afterFails _ _ _ _ _ => exact nomatch hok

/-- What was made need not be made again. -/
theorem again_ok (h : Makes levels fs path (.ok ()) fs') (hs : fs.IsStanding) :
    Makes levels fs' path (.ok ()) fs' := by
  by_cases hpath : path = ""
  · subst hpath
    cases h with
    | nothing => exact .nothing
    | there h => exact absurd rfl (ne_empty_of_ensured h)
    | after hne _ _ _ _ => exact absurd rfl hne
  · have hdir := h.isDirectory hs rfl hpath
    exact .there (ensured_of_isDirectory ((h.furnishes hs).standing hs) hdir)

/-- **A directory that is made is the one asked for or one above it.** -/
theorem exists_isAbove (h : Makes levels fs path result fs') (hs : fs.IsStanding) {q : Place}
    (hnone : fs.root.faceAt? q = none) (hmade : fs'.root.faceAt? q ≠ none) :
    ∃ a node, Path.IsAbove a path ∧ fs'.find true a = .ok (.present q node) := by
  induction h with
  | nothing => exact absurd hnone hmade
  | @there levels fs fs' path h => exact exists_isAbove_of_ensured hs h hnone hmade
  | fails _ _ => exact absurd hnone hmade
  | aboveFails _ _ hparent more ih =>
    obtain ⟨a, node, habove, hfind⟩ := ih hs hnone hmade
    exact ⟨a, node, .step hparent habove, hfind⟩
  | @after levels fs mid fs' path parent hpath h hparent more hend ih =>
    have hmid := (more.furnishes hs).standing hs
    by_cases hthere : mid.root.faceAt? q = none
    · exact exists_isAbove_of_ensured hmid hend hthere hmade
    · obtain ⟨a, node, habove, hfind⟩ := ih hs hnone hthere
      obtain ⟨node', hfind'⟩ := (furnishes_ensured hmid hend).exists_find hmid hfind
      exact ⟨a, node', .step hparent habove, hfind'⟩
  | afterFails _ _ hparent more _ ih =>
    obtain ⟨a, node, habove, hfind⟩ := ih hs hnone hmade
    exact ⟨a, node, .step hparent habove, hfind⟩

theorem exists_ensured_error (h : Makes levels fs path result fs') (herror : result ≠ .ok ()) :
    ∃ e, fs.ensured path = .error e := by
  cases h with
  | nothing => exact absurd rfl herror
  | there _ => exact absurd rfl herror
  | fails h _ => exact ⟨_, h⟩
  | aboveFails _ h _ _ => exact ⟨_, h⟩
  | after _ h _ _ _ => exact ⟨_, h⟩
  | afterFails _ h _ _ _ => exact ⟨_, h⟩

/-- **What cannot be made cannot be made at the second attempt either**, and nothing more is made
then.  The reason need not be the same. -/
theorem again (h : Makes levels fs path result fs') (hs : fs.IsStanding)
    (herror : result ≠ .ok ()) : ∃ e, Makes levels fs' path (.error e) fs' := by
  induction h with
  | nothing => exact absurd rfl herror
  | there _ => exact absurd rfl herror
  | fails h hend => exact ⟨_, .fails h hend⟩
  | @aboveFails levels fs mid path parent e hpath h hparent more ih =>
    obtain ⟨e', hmore⟩ := ih hs nofun
    have hmid := (more.furnishes hs).standing hs
    cases hagain : mid.ensured path with
    | ok fs'' =>
      -- then the directory above would be there, and would have been made
      exfalso
      by_cases hne : parent = ""
      · subst hne
        cases more with
        | fails _ _ => exact nomatch h.symm.trans hagain
        | aboveFails hno _ _ _ => exact hno rfl
        | afterFails hno _ _ _ _ => exact hno rfl
      · have hdir := isDirectory_parent_of_ensured hmid hagain hparent hne
        obtain ⟨e'', herror⟩ := hmore.exists_ensured_error nofun
        exact nomatch (ensured_of_isDirectory hmid hdir).symm.trans herror
    | error e'' =>
      by_cases he : e'' = .notFound
      · exact ⟨e', .aboveFails hpath (he ▸ hagain) hparent hmore⟩
      · exact ⟨e'', .fails hagain (.inr ⟨hpath, .inl he⟩)⟩
  | after _ _ _ _ _ => exact absurd rfl herror
  | @afterFails levels fs mid path parent e hpath h hparent more hend =>
    by_cases he : e = .notFound
    · exact ⟨e, .afterFails hpath (he ▸ hend) hparent (more.again_ok hs) hend⟩
    · exact ⟨e, .fails hend (.inr ⟨hpath, .inl he⟩)⟩

/-- The steps tell what is made. -/
theorem perform_eq (h : Makes levels fs path result fs') :
    perform (createUpwards levels path) fs = (result, fs') := by
  induction h with
  | nothing => rfl
  | there h => exact createUpwards_of_ensured (ne_empty_of_ensured h) h _
  | fails h hend => exact createUpwards_of_error h hend
  | aboveFails hpath h hparent _ ih => rw [createUpwards_of_notFound hpath h hparent, ih]
  | after hpath h hparent _ hend ih =>
    rw [createUpwards_of_notFound hpath h hparent, ih]
    exact perform_become hend
  | afterFails hpath h hparent _ hend ih =>
    rw [createUpwards_of_notFound hpath h hparent, ih]
    exact perform_become_error hend

end Makes

/-! ## As it is asked for -/

/-- Files that are others with a directory at a path, and those above it, made where they were
missing; perhaps not all of them. -/
structure Readies (fs : Files) (path : String) (fs' : Files) : Prop where
  furnishes : Furnishes fs fs'
  isAbove : ∀ q, fs.root.faceAt? q = none → fs'.root.faceAt? q ≠ none →
    ∃ a node, Path.IsAbove a path ∧ fs'.find true a = .ok (.present q node)

theorem makes_createAll (fs : Files) (path : String) :
    Makes (path.length + 1) fs path (perform (createAll path) fs).1
      (perform (createAll path) fs).2 :=
  makes_perform _ fs path

theorem readies_createAll (h : fs.IsStanding) (path : String) :
    Readies fs path (perform (createAll path) fs).2 where
  furnishes := (makes_createAll fs path).furnishes h
  isAbove _ hnone hmade := (makes_createAll fs path).exists_isAbove h hnone hmade

end Files
end FirmwareLane
