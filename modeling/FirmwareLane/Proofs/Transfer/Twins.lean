import FirmwareLane.Proofs.Transfer.Locality
import FirmwareLane.Proofs.Transfer.Recording
import FirmwareLane.Proofs.Transfer.Restoring

/-!
# Restoring below two roots

Where two roots lead to the same directory, perhaps in different trees, restoring a snapshot below one
gives the same result as below the other, makes the same directory of it, and changes nothing else
(`isLocal_restore`).  The one thing about a root that matters besides is how long its path is: a file
may be out of reach below the longer one.

`Site` says what is asked of each of the two roots and `Twins` what is then known of the two results.
An action for which this holds is local (`IsLocal`), and so is a series of such actions.  Beside itself
a root has no longer path, so a local action stays in the directory of its root
(`IsLocal.exists_perform`).
-/

set_option autoImplicit false
namespace FirmwareLane
namespace Transfer

open Action (perform)
open Files (Grows IsPath Unlinked)

/-! ## Two paths of one place -/

/-- Below two roots paths have the same lengths. -/
def SameRoom (root root' : String) : Prop :=
  (Path.below root "").utf8ByteSize = (Path.below root' "").utf8ByteSize

variable {fs fs' : Files} {root root' name : String} {R R' p q : Place} {n n' : Node}
  {ps : List Place}

theorem utf8ByteSize_below (hroot : root ≠ "") (hp : Parted p) :
    (Path.below root (relative p)).utf8ByteSize =
      (Path.below root "").utf8ByteSize + (relative p).utf8ByteSize := by
  have hlist : Path.below root (relative p) = Path.below root "" ++ relative p := by
    rw [← String.toList_inj, String.toList_append, Path.toList_below hroot (head?_relative hp),
      Path.toList_below hroot (by decide), List.append_assoc]
    rfl
  rw [hlist, String.utf8ByteSize_append]

theorem Based.not_nul_of_isPath (h : Based fs root R n) (hp : Parted p)
    (hpath : IsPath (Path.below root (relative p))) : ∀ name ∈ p, '\x00' ∉ name.toList := by
  intro name hname hmem
  refine hpath.nul ?_
  rw [Path.toList_below h.ne_empty (head?_relative hp), toList_relative]
  exact List.mem_append_right _ (List.mem_cons_of_mem _
    (Path.mem_join_of_mem (List.mem_map_of_mem hname) hmem))

/-- A path that cannot be followed below one root cannot be below the other for the same reason,
unless it is too long below one of them. -/
theorem Based.unusable?_eq_or (h : Based fs root R n) (h' : Based fs' root' R' n) (hp : Parted p) :
    Files.unusable? (Path.below root (relative p)) = Files.unusable? (Path.below root' (relative p)) ∨
      ¬ SameRoom root root' ∧
        (Files.unusable? (Path.below root (relative p)) = some .nameTooLong ∨
          Files.unusable? (Path.below root' (relative p)) = some .nameTooLong) := by
  have hnul : ∀ {fs : Files} {root : String} {R : Place}, Based fs root R n →
      (Path.below root (relative p)).toList.contains '\x00' = (relative p).toList.contains '\x00' := by
    intro fs root R h
    have hstem : '\x00' ∉ Path.stem root := fun hmem ↦ h.isPath.nul ((Path.stem_isPrefix root).subset hmem)
    rw [Path.toList_below h.ne_empty (head?_relative hp)]
    simp [hstem]
  simp only [Files.unusable?, hnul h, hnul h', utf8ByteSize_below h.ne_empty hp,
    utf8ByteSize_below h'.ne_empty hp]
  by_cases hroom : SameRoom root root'
  · rw [hroom]
    exact .inl rfl
  · split_ifs
    · exact .inl rfl
    · exact .inl rfl
    · exact .inr ⟨hroom, .inl rfl⟩
    · exact .inr ⟨hroom, .inr rfl⟩
    · exact .inl rfl

/-! ## Two results -/

/-- Two faults that differ only in the roots that they name. -/
inductive Moved (root root' : String) : Fault → Fault → Prop
  | same (fault : Fault) : Moved root root' fault fault
  | rootNotFound : Moved root root' (.rootNotFound root) (.rootNotFound root')
  | files (path : String) (fault : Files.Fault) :
      Moved root root' (.files (Path.below root path) fault) (.files (Path.below root' path) fault)
  | walkRoot (fault : Files.Fault) : Moved root root' (.walk root fault) (.walk root' fault)
  | walk (path : String) (fault : Files.Fault) :
      Moved root root' (.walk (Path.below root path) fault) (.walk (Path.below root' path) fault)

/-- A fault that a path is too long. -/
def Fault.isTooLong : Fault → Bool
  | .files _ .nameTooLong => true
  | .walk _ .nameTooLong => true
  | _ => false

/-- A path was too long. -/
def TooLong {α : Type} (result : Except Fault α) : Prop :=
  ∃ fault, result = .error fault ∧ fault.isTooLong = true

/-- Two results that differ only in the roots that faults name. -/
inductive Alike {α : Type} (root root' : String) : Except Fault α → Except Fault α → Prop
  | ok (a : α) : Alike root root' (.ok a) (.ok a)
  | error {fault fault' : Fault} (h : Moved root root' fault fault') :
      Alike root root' (.error fault) (.error fault')

/-- What is known of the two results of doing the same below two roots that lead to one directory: the
same came of it and of the directory, or a path was too long below one of the roots. -/
inductive Twins {α : Type} (root root' : String) (R R' : Place) (n : Node) (fs fs' : Files)
    (y y' : Except Fault α × Files) : Prop
  | alike {n' : Node} (hgrows : Grows n n') (hfiles : y.2 = fs.within R n')
      (hfiles' : y'.2 = fs'.within R' n') (h : Alike root root' y.1 y'.1)
  | apart {m m' : Node} (hm : Grows n m) (hm' : Grows n m') (hfiles : y.2 = fs.within R m)
      (hfiles' : y'.2 = fs'.within R' m') (hroom : ¬ SameRoom root root')
      (h : TooLong y.1 ∨ TooLong y'.1)

/-! ## What is asked of a root -/

/-- A root leads to a directory in a sound tree, and so that what is done at some places below it is
done in that directory: no link is on the way, and no file there has a name elsewhere. -/
structure Site (fs : Files) (root : String) (R : Place) (n : Node) (ps : List Place) : Prop where
  based : Based fs root R n
  sound : fs.root.Sound
  unlinked : ∀ p ∈ ps, Unlinked n p
  owned : ∀ p ∈ ps, Owned fs R n p

namespace Site

theorem mono {qs : List Place} (h : Site fs root R n ps) (hqs : ∀ q ∈ qs, q ∈ ps) :
    Site fs root R n qs :=
  ⟨h.based, h.sound, fun q hq ↦ h.unlinked q (hqs q hq), fun q hq ↦ h.owned q (hqs q hq)⟩

theorem singleton {p : Place} (h : Based fs root R n) (hs : fs.root.Sound) (hlink : Unlinked n p)
    (howned : Owned fs R n p) : Site fs root R n [p] :=
  ⟨h, hs, fun _ hq ↦ List.mem_singleton.1 hq ▸ hlink, fun _ hq ↦ List.mem_singleton.1 hq ▸ howned⟩

/-- A root is still what it was when the directory there has grown. -/
theorem within (h : Site fs root R n ps) (hgrows : Grows n n') :
    Site (fs.within R n') root R n' ps where
  based := h.based.within hgrows
  sound := h.based.sound_within h.sound (hgrows.sound (h.based.sound h.sound))
  unlinked p hp := hgrows.unlinked (h.unlinked p hp)
  owned p hp m b i hfile hi q m' b' hq := by
    obtain ⟨b₀, hfile₀⟩ := hgrows.exists_file hi hfile
    by_contra hout
    have hface := (Node.holds_of_at? h.based.at?_eq).faceAt?_put_outside n' hout
    rw [Files.root_within] at hq
    rw [Node.faceAt?_eq_file.2 hq] at hface
    exact hout (h.owned p hp m b₀ i hfile₀ hi q m' b' (Node.faceAt?_eq_file.1 hface.symm))

/-- Nothing in an empty directory leads elsewhere. -/
theorem of_empty (h : Based fs root R Node.emptyDirectory) (hs : fs.root.Sound) (ps : List Place) :
    Site fs root R Node.emptyDirectory ps where
  based := h
  sound := hs
  unlinked p _ q target _ := by cases q <;> exact nofun
  owned p _ m b i hfile := by cases p <;> exact nomatch hfile

end Site

/-- What an action does below a root concerns nothing but the directory there, as long as nothing at
some places below the root leads elsewhere. -/
structure IsLocal {α : Type} (ps : List Place) (act : String → Files.Action Fault α) : Prop where
  twins : ∀ {fs fs' : Files} {root root' : String} {R R' : Place} {n : Node},
    Site fs root R n ps → Site fs' root' R' n ps →
      Twins root root' R R' n fs fs' (perform (act root) fs) (perform (act root') fs')

namespace IsLocal

variable {α β : Type} {qs : List Place} {act : String → Files.Action Fault α}

theorem pure (ps : List Place) (a : α) :
    IsLocal ps fun _ ↦ (Pure.pure a : Files.Action Fault α) where
  twins h h' := by
    refine .alike (.refl _) ?_ ?_ (.ok a)
    · rw [h.based.within_self h.sound]
      rfl
    · rw [h'.based.within_self h'.sound]
      rfl

/-- **An action stays in the directory of its root.** -/
theorem exists_perform (hact : IsLocal ps act) (h : Site fs root R n ps) :
    ∃ n', Grows n n' ∧ (perform (act root) fs).2 = fs.within R n' := by
  cases hact.twins h h with
  | alike hgrows hfiles _ _ => exact ⟨_, hgrows, hfiles⟩
  | apart _ _ _ _ hroom _ => exact absurd rfl hroom

/-- What follows an action stays in the directory too, and changes no failure. -/
theorem exists_perform_bind {next : α → String → Files.Action Fault β}
    (hnext : ∀ a, IsLocal ps (next a)) (h : Site fs root R n ps) (hgrows : Grows n n')
    (hfiles : (perform (act root) fs).2 = fs.within R n') :
    ∃ m, Grows n m ∧
      (perform (act root >>= fun a ↦ next a root) fs).2 = fs.within R m ∧
      (TooLong (perform (act root) fs).1 →
        TooLong (perform (act root >>= fun a ↦ next a root) fs).1) := by
  rcases hx : perform (act root) fs with ⟨fault | a, fs₁⟩
  · rw [hx] at hfiles
    rw [Action.perform_bind_error hx]
    refine ⟨n', hgrows, hfiles, fun ⟨fault', heq, hlong⟩ ↦ ⟨fault', ?_, hlong⟩⟩
    exact congrArg _ (Except.error.inj heq)
  · rw [hx] at hfiles
    obtain rfl : fs₁ = fs.within R n' := hfiles
    rw [Action.perform_bind_ok hx]
    obtain ⟨m, hgrows', heq⟩ := (hnext a).exists_perform (h.within hgrows)
    have hn' := hgrows.sound (h.based.sound h.sound)
    refine ⟨m, hgrows.trans hgrows', ?_, fun ⟨fault, hno, _⟩ ↦ nomatch hno⟩
    rw [heq, h.based.within_within h.sound hn' (hgrows'.sound hn')]

/-- **One local action after another is local.** -/
theorem bind {next : α → String → Files.Action Fault β} (hact : IsLocal ps act)
    (hnext : ∀ a, IsLocal ps (next a)) :
    IsLocal ps fun root ↦ act root >>= fun a ↦ next a root where
  twins {fs fs' root root' R R' n} h h' := by
    cases hact.twins h h' with
    | @alike m hgrows hfiles hfiles' halike =>
      rcases hx : perform (act root) fs with ⟨x, fs₁⟩
      rcases hx' : perform (act root') fs' with ⟨x', fs₁'⟩
      rw [hx] at hfiles halike
      rw [hx'] at hfiles' halike
      obtain rfl : fs₁ = fs.within R m := hfiles
      obtain rfl : fs₁' = fs'.within R' m := hfiles'
      cases halike with
      | error hmoved =>
        rw [Action.perform_bind_error hx, Action.perform_bind_error hx']
        exact .alike hgrows rfl rfl (.error hmoved)
      | ok a =>
        rw [Action.perform_bind_ok hx, Action.perform_bind_ok hx']
        have hm := hgrows.sound (h.based.sound h.sound)
        cases (hnext a).twins (h.within hgrows) (h'.within hgrows) with
        | alike hgrows' hrest hrest' halike =>
          have hk := hgrows'.sound hm
          rw [h.based.within_within h.sound hm hk] at hrest
          rw [h'.based.within_within h'.sound hm hk] at hrest'
          exact .alike (hgrows.trans hgrows') hrest hrest' halike
        | apart hk hk' hrest hrest' hroom hlong =>
          rw [h.based.within_within h.sound hm (hk.sound hm)] at hrest
          rw [h'.based.within_within h'.sound hm (hk'.sound hm)] at hrest'
          exact .apart (hgrows.trans hk) (hgrows.trans hk') hrest hrest' hroom hlong
    | apart hm hm' hfiles hfiles' hroom hlong =>
      obtain ⟨k, hk, heq, htoo⟩ := exists_perform_bind hnext h hm hfiles
      obtain ⟨k', hk', heq', htoo'⟩ := exists_perform_bind hnext h' hm' hfiles'
      exact .apart hk hk' heq heq' hroom (hlong.imp htoo htoo')

theorem mono (hact : IsLocal ps act) (hqs : ∀ p ∈ ps, p ∈ qs) : IsLocal qs act :=
  ⟨fun h h' ↦ hact.twins (h.mono hqs) (h'.mono hqs)⟩

/-- Local actions one after another are local. -/
theorem forM {ι : Type} {xs : List ι} {act : ι → String → Files.Action Fault Unit}
    (hact : ∀ x ∈ xs, IsLocal ps (act x)) :
    IsLocal ps fun root ↦ xs.forM fun x ↦ act x root := by
  induction xs with
  | nil => exact IsLocal.pure ps ()
  | cons x rest ih =>
    have hrest := ih fun y hy ↦ hact y (List.mem_cons_of_mem _ hy)
    exact (hact x List.mem_cons_self).bind fun _ ↦ hrest

end IsLocal

/-! ## Restoring is local -/

theorem isTooLong_of_unusable? {path : String} {fault : Files.Fault}
    (h : Files.unusable? path = some fault) :
    Files.isTooLong path = true ∧ fault = .nameTooLong ∨
      Files.isTooLong path = false ∧ fault = .unnameable := by
  rw [Files.unusable?] at h
  rw [Files.isTooLong]
  split_ifs at h with hnul hlong
  · exact .inr ⟨by rw [hnul]; rfl, (Option.some.inj h).symm⟩
  · refine .inl ⟨?_, (Option.some.inj h).symm⟩
    rw [Bool.eq_false_iff.2 hnul, decide_eq_true hlong]
    rfl

/-- Nothing is made under a path that cannot be followed. -/
theorem Based.createAll_of_unusable? (h : Based fs root R n) (hp : Parted (p ++ [name]))
    {fault : Files.Fault}
    (hno : Files.unusable? (Path.below root (relative (p ++ [name]))) = some fault) :
    perform (Files.createAll (Path.below root (relative (p ++ [name])))) fs = (.error fault, fs) := by
  have hne := below_ne_empty h.ne_empty hp
  have hmade : fs.withDirectory (Path.below root (relative (p ++ [name]))) = .error fault := by
    rw [Files.withDirectory]
    rcases isTooLong_of_unusable? hno with ⟨hlong, rfl⟩ | ⟨hshort, -⟩
    · rw [if_pos hlong]
    · rw [hshort, withoutEnd_below h.ne_empty hp, Files.find_of_unusable? hne hno]
      rfl
  have hensured : fs.ensured (Path.below root (relative (p ++ [name]))) = .error fault := by
    rw [Files.ensured, hmade, Files.isDirectory, Files.node, Files.present,
      Files.find_of_unusable? hne hno]
    rfl
  have hfault : fault ≠ .notFound := by
    rcases isTooLong_of_unusable? hno with ⟨-, rfl⟩ | ⟨-, rfl⟩ <;> rintro ⟨⟩
  exact (Files.Makes.fails hensured (.inr ⟨hne, .inl hfault⟩)).perform_eq

/-- What is done under the path of a place below a root is local if it fails where that path cannot be
followed, and else is told by the directory of the root. -/
theorem isLocal_describing {act : String → Files.Action Files.Fault Unit} (hp : Parted p)
    (hq : p <+: q)
    (hfails : ∀ {fs root R n fault}, Based fs root R n →
      Files.unusable? (Path.below root (relative p)) = some fault →
      perform (act (Path.below root (relative p))) fs = (.error fault, fs))
    (hacts : ∀ n, Unlinked n p → n.isDirectory = true → (∀ name ∈ p, '\x00' ∉ name.toList) →
      ∃ result n', Grows n n' ∧ ∀ fs root R, Site fs root R n [q] →
        IsPath (Path.below root (relative p)) →
        perform (act (Path.below root (relative p))) fs = (result, fs.within R n')) :
    IsLocal [q] fun root ↦ Files.describing (.files (Path.below root (relative p)))
      (act (Path.below root (relative p))) where
  twins {fs fs' root root' R R' n} h h' := by
    simp only [Files.describing, Action.perform_adapt]
    have hlong : ∀ {fs : Files} {root : String} {R : Place}, Based fs root R n →
        Files.unusable? (Path.below root (relative p)) = some .nameTooLong →
        TooLong ((perform (act (Path.below root (relative p))) fs).1.mapError
          (Fault.files (Path.below root (relative p)))) := by
      intro fs root R h hno
      rw [hfails h hno]
      exact ⟨_, rfl, rfl⟩
    have hlink := (h.unlinked q List.mem_cons_self).of_isPrefix hq
    have hself : ∀ {fs : Files} {root : String} {R : Place}, Site fs root R n [q] →
        ∃ m, Grows n m ∧ (perform (act (Path.below root (relative p))) fs).2 = fs.within R m := by
      intro fs root R h
      cases hno : Files.unusable? (Path.below root (relative p)) with
      | some fault =>
        refine ⟨n, .refl n, ?_⟩
        rw [hfails h.based hno, h.based.within_self h.sound]
      | none =>
        have hpath := Files.isPath_of_unusable? (below_ne_empty h.based.ne_empty hp) hno
        obtain ⟨result, n', hgrows, hact⟩ :=
          hacts n hlink h.based.isDirectory (h.based.not_nul_of_isPath hp hpath)
        refine ⟨n', hgrows, ?_⟩
        rw [hact fs root R h hpath]
    rcases h.based.unusable?_eq_or h'.based hp with heq | ⟨hroom, hone⟩
    · cases hno : Files.unusable? (Path.below root (relative p)) with
      | some fault =>
        refine .alike (.refl n) ?_ ?_ ?_
        · rw [hfails h.based hno, h.based.within_self h.sound]
        · rw [hfails h'.based (heq ▸ hno), h'.based.within_self h'.sound]
        · rw [hfails h.based hno, hfails h'.based (heq ▸ hno)]
          exact .error (.files _ fault)
      | none =>
        have hpath := Files.isPath_of_unusable? (below_ne_empty h.based.ne_empty hp) hno
        obtain ⟨result, n', hgrows, hact⟩ :=
          hacts n hlink h.based.isDirectory (h.based.not_nul_of_isPath hp hpath)
        rw [hact fs root R h hpath, hact fs' root' R' h'
          (Files.isPath_of_unusable? (below_ne_empty h'.based.ne_empty hp) (heq ▸ hno))]
        refine .alike hgrows rfl rfl ?_
        cases result with
        | ok a => exact .ok a
        | error fault => exact .error (.files _ fault)
    · obtain ⟨m, hm, hfiles⟩ := hself h
      obtain ⟨m', hm', hfiles'⟩ := hself h'
      exact .apart hm hm' hfiles hfiles' hroom (hone.imp (hlong h.based) (hlong h'.based))

/-- The directory above a place is made below a root as the directory there tells. -/
theorem isLocal_createAll (hp : Parted p) (hne : p ≠ []) (hq : p <+: q) :
    IsLocal [q] fun root ↦ Files.describing (.files (Path.below root (relative p)))
      (Files.createAll (Path.below root (relative p))) := by
  obtain ⟨front, name, rfl⟩ := (List.eq_nil_or_concat' p).resolve_left hne
  refine isLocal_describing hp hq (fun h hno ↦ h.createAll_of_unusable? hp hno)
    fun n hlink hdir hnul ↦ ?_
  obtain ⟨result, n', hgrows, -, hmakes⟩ := exists_makes hp hne hnul hlink hdir
  refine ⟨result, n', hgrows, fun fs root R h hpath ↦ ?_⟩
  have hlevels := Nat.le_succ_of_le (length_le_below h.based.ne_empty hp)
  exact (hmakes fs root R _ h.based h.sound hpath hlevels).perform_eq

/-- A file is written below a root as the directory there tells. -/
theorem isLocal_write (hp : Parted p) (hne : p ≠ []) (b : Text.Bytes) :
    IsLocal [p] fun root ↦ Files.describing (.files (Path.below root (relative p)))
      (Files.write (Path.below root (relative p)) b) := by
  obtain ⟨front, name, rfl⟩ := (List.eq_nil_or_concat' p).resolve_left hne
  have hlocal := @isLocal_describing (front ++ [name]) _ (fun path ↦ Files.write path b) hp
    List.prefix_rfl
  refine hlocal (fun h hno ↦ ?_) fun n hlink _ hnul ↦ ?_
  · rw [Files.perform_write, Files.find_of_unusable? (below_ne_empty h.ne_empty hp) hno]
  · have hname := hnul name (List.mem_append_right _ (List.mem_singleton_self name))
    obtain ⟨result, n', hgrows, -, hwrite⟩ := exists_write hp hname hlink b
    exact ⟨result, n', hgrows, fun fs root R h hpath ↦
      hwrite fs root R h.based h.sound hpath (h.owned _ List.mem_cons_self)⟩

/-- The places that the entries of a snapshot name. -/
def placesOf (entries : List Entry) : List Place :=
  entries.map fun e ↦ Path.names e.path.toList

/-- The directories above a path are made. -/
def makeAbove (path : String) : Files.Action Fault Unit :=
  match Path.parent? path with
  | some parent => Files.describing (.files parent) (Files.createAll parent)
  | none => pure ()

/-- The directories above an entry are made first, and then its file is written. -/
theorem restoreEntry_relative (root : String) (hp : Parted p) (content : Content) :
    restoreEntry root ⟨relative p, content⟩ =
      makeAbove (Path.below root (relative p)) >>= fun _ ↦
        Files.describing (.files (Path.below root (relative p)))
          (Files.write (Path.below root (relative p)) (written content)) := by
  rw [restoreEntry, belowOnly?_relative hp]
  dsimp only
  rw [makeAbove]
  cases Path.parent? (Path.below root (relative p)) <;> rfl

/-- **An entry is restored below a root as the directory there tells.** -/
theorem isLocal_restoreEntry {e : Entry} (he : Path.IsAdmitted e.path) :
    IsLocal [Path.names e.path.toList] fun root ↦ restoreEntry root e := by
  obtain ⟨path, content⟩ := e
  obtain ⟨p, hne, hp, rfl⟩ := exists_place_of_isAdmitted he
  dsimp only
  rw [names_relative hp]
  have hwrite := isLocal_write hp hne (written content)
  obtain ⟨front, name, rfl⟩ := (List.eq_nil_or_concat' p).resolve_left hne
  have habove : IsLocal [front ++ [name]] fun root ↦
      makeAbove (Path.below root (relative (front ++ [name]))) := by
    by_cases hfront : front = []
    · -- the directory above is that of the root
      subst hfront
      refine ⟨fun {fs fs' root root' R R' n} h h' ↦ ?_⟩
      obtain ⟨parent, hparent, hdir⟩ := h.based.isDirectory_parent hp.last
      obtain ⟨parent', hparent', hdir'⟩ := h'.based.isDirectory_parent hp.last
      simp only [List.nil_append, makeAbove, hparent, hparent', Files.describing, Action.perform_adapt,
        Files.createAll_of_isDirectory h.based.standing hdir,
        Files.createAll_of_isDirectory h'.based.standing hdir']
      refine .alike (.refl n) ?_ ?_ (.ok ())
      · rw [h.based.within_self h.sound]
      · rw [h'.based.within_self h'.sound]
    · have hmake := isLocal_createAll hp.of_append_left hfront (List.prefix_append front [name])
      refine ⟨fun {fs fs' root root' R R' n} h h' ↦ ?_⟩
      rw [makeAbove, makeAbove, parent?_below h.based.ne_empty hfront hp,
        parent?_below h'.based.ne_empty hfront hp]
      exact hmake.twins h h'
  have hboth := habove.bind fun _ ↦ hwrite
  refine ⟨fun {fs fs' root root' R R' n} h h' ↦ ?_⟩
  rw [restoreEntry_relative root hp, restoreEntry_relative root' hp]
  exact hboth.twins h h'

/-- **A snapshot is restored below a root as the directory there tells.** -/
theorem isLocal_restore (s : Snapshot) :
    IsLocal (placesOf s.entries) fun root ↦ restore root s := by
  have hall : IsLocal (placesOf s.entries) fun root ↦ s.entries.forM fun e ↦ restoreEntry root e := by
    have hentry : ∀ e ∈ s.entries, IsLocal (placesOf s.entries) fun root ↦ restoreEntry root e := by
      refine fun e he ↦ (isLocal_restoreEntry (s.admitted he)).mono fun p hp ↦ ?_
      exact List.mem_singleton.1 hp ▸ List.mem_map_of_mem he
    exact IsLocal.forM hentry
  refine ⟨fun {fs fs' root root' R R' n} h h' ↦ ?_⟩
  rw [perform_restore h.based.standing h.based.isDirectory_root,
    perform_restore h'.based.standing h'.based.isDirectory_root]
  exact hall.twins h h'

end Transfer
end FirmwareLane
