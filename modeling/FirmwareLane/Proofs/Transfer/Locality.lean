import FirmwareLane.Proofs.Files.Growing
import FirmwareLane.Proofs.Transfer.Making
import FirmwareLane.Transfer.Basic

/-!
# What happens below a root

What an operation does under a path below a root, and what comes of it, is told by the directory that
the root leads to: the same directory at another place of another tree gives the same result and
becomes the same directory (`exists_ensured`, `exists_makes`, `exists_write`).  Each of these
statements says first what comes of it, and then that this is so wherever the directory is.

That is so as long as the way from the root comes to no link, and the file that is written has no
name elsewhere (`Owned`).
-/

set_option autoImplicit false
namespace FirmwareLane
namespace Transfer

open Action (perform)
open Files (Beside Grows IsOnly IsPath Makes Paved Searchable Unlinked)

variable {fs fs' : Files} {root name : String} {R p q : Place} {n n' : Node} {fault : Files.Fault}

/-! ## A directory that grows -/

namespace Based

/-- A root leads to the same place when the directory there grows. -/
theorem within (h : Based fs root R n) (hgrows : Grows n n') : Based (fs.within R n') root R n' := by
  have hholds := Node.holds_of_at? h.at?_eq
  have hext : fs.root.Extends (fs.root.put R n') := by
    intro q c hc
    by_cases hq : R <+: q
    · obtain ⟨q, rfl⟩ := hq
      rw [Node.faceAt?_append h.at?_eq] at hc
      rw [hholds.faceAt?_put_append]
      exact hgrows.isExtension q c hc
    · exact ⟨c, (hholds.faceAt?_put_outside n' hq).trans hc, rfl⟩
  have hstanding : (fs.within R n').IsStanding := by
    obtain ⟨c, hc⟩ := Option.ne_none_iff_exists'.1 h.standing
    obtain ⟨c', hc', -⟩ := hext.entry hc
    exact Option.ne_none_iff_exists'.2 ⟨c', hc'⟩
  refine ⟨hstanding, (Files.find_eq_ok hstanding).2 ⟨h.isPath, ?_⟩, hgrows.isDirectory h.isDirectory⟩
  obtain ⟨node, hleads⟩ := h.leads.of_extends hext rfl
  obtain rfl : n' = node := Option.some.inj ((hholds.at?_put n').symm.trans (hleads.at? rfl))
  exact hleads

/-- What a path below a root leads to is told by the directory of the root. -/
theorem find_eq_reach (h : Based fs root R n) (hp : Parted (p ++ [name]))
    (hpath : IsPath (Path.below root (relative (p ++ [name])))) (hlink : Unlinked n (p ++ [name]))
    (follow : Bool) :
    fs.find follow (Path.below root (relative (p ++ [name]))) =
      (Files.reach n (p ++ [name])).map (Files.Target.under R) := by
  obtain ⟨jump, hjump⟩ := h.find_below follow hp hpath
  have hwalk := Files.walkOn_append (q := []) h.at?_eq hp hlink follow jump
  rw [List.append_nil] at hwalk
  rw [hjump, hwalk, Files.reach]

theorem mayChange_append (h : Based fs root R n) {m : Nat} {es : List (String × Node)}
    (hp : n.at? p = some (.directory m es)) (name : String) :
    fs.mayChange (R ++ (p ++ [name])) =
      ((Node.directory m es).allows .write && (Node.directory m es).allows .search) := by
  rw [Files.mayChange, ← List.append_assoc, List.dropLast_concat, Node.at?_append, h.at?_eq,
    Option.bind_some, hp]

theorem within_put (h : Based fs root R n) (hs : fs.root.Sound) {m : Nat}
    {es : List (String × Node)} {c : Node} (hp : n.at? p = some (.directory m es))
    (hname : IsName name) (hc : c.Sound) :
    { fs with root := fs.root.put (R ++ (p ++ [name])) c } = fs.within R (n.put (p ++ [name]) c) := by
  have hnames := Node.names_of_at? (hs.at? h.at?_eq).2 hp
  refine congrArg (Files.mk · fs.here) (Node.put_append hs h.at?_eq (fun step hstep ↦ ?_)
    (.entry hp name) hc)
  rcases List.mem_append.1 hstep with hstep | hstep
  · exact hnames step hstep
  · exact List.mem_singleton.1 hstep ▸ hname

theorem within_self (h : Based fs root R n) (hs : fs.root.Sound) : fs.within R n = fs :=
  congrArg (Files.mk · fs.here) (Node.put_self hs h.at?_eq)

/-- One change of the directory after another. -/
theorem within_within (h : Based fs root R n) (hs : fs.root.Sound) {n'' : Node}
    (hn' : n'.Sound) (hn'' : n''.Sound) : (fs.within R n').within R n'' = fs.within R n'' :=
  congrArg (Files.mk · fs.here) (Node.put_put hs (Node.names_of_at? hs h.at?_eq)
    (Node.holds_of_at? h.at?_eq) hn' hn'')

theorem sound (h : Based fs root R n) (hs : fs.root.Sound) : n.Sound := (hs.at? h.at?_eq).2

theorem sound_within (h : Based fs root R n) (hs : fs.root.Sound) (hn' : n'.Sound) :
    (fs.within R n').root.Sound :=
  hs.put (Node.names_of_at? hs h.at?_eq) hn'

end Based

/-- A file at a place in a directory has no name outside that directory. -/
def Owned (fs : Files) (R : Place) (n : Node) (p : Place) : Prop :=
  ∀ m b i, n.at? p = some (.file m b i) → i ≠ 0 →
    ∀ q m' b', fs.root.at? q = some (.file m' b' i) → R <+: q

theorem isName_of_isEntryStep (hp : IsPart name) (hnul : '\x00' ∉ name.toList)
    (hstep : Files.IsEntryStep name) : IsName name :=
  ⟨hp.nonempty, hp.slash, hnul, hp.notHere, hp.notAbove, hstep.size⟩

/-- What making a directory comes to where a path leads. -/
def withDirectoryAt (fs : Files) : Except Files.Fault Files.Target → Except Files.Fault Files
  | .ok (.vacant place) =>
    if fs.mayChange place then .ok { fs with root := fs.root.put place Node.emptyDirectory }
    else .error .denied
  | .ok (.present _ _) => .error .taken
  | .error fault => .error fault

/-- Whether a path leads to a directory. -/
def leadsToDirectory : Except Files.Fault Files.Target → Bool
  | .ok (.present _ c) => c.isDirectory
  | _ => false

/-- What making a directory comes to is told by where its path leads in the directory of the root. -/
theorem Based.ensured_eq (h : Based fs root R n) (hp : Parted (p ++ [name]))
    (hlink : Unlinked n (p ++ [name]))
    (hpath : IsPath (Path.below root (relative (p ++ [name])))) :
    fs.ensured (Path.below root (relative (p ++ [name]))) =
      match withDirectoryAt fs ((Files.reach n (p ++ [name])).map (Files.Target.under R)) with
      | .ok fs' => .ok fs'
      | .error fault =>
        if leadsToDirectory (Files.reach n (p ++ [name])) then .ok fs else .error fault := by
  have hmade : fs.withDirectory (Path.below root (relative (p ++ [name]))) =
      withDirectoryAt fs ((Files.reach n (p ++ [name])).map (Files.Target.under R)) := by
    rw [Files.withDirectory, Files.isTooLong_eq_false hpath.size, withoutEnd_below h.ne_empty hp,
      h.find_eq_reach hp hpath hlink]
    rfl
  have hdirectory : fs.isDirectory (Path.below root (relative (p ++ [name]))) =
      leadsToDirectory (Files.reach n (p ++ [name])) := by
    rw [Files.isDirectory, Files.node, Files.present, h.find_eq_reach hp hpath hlink]
    cases Files.reach n (p ++ [name]) with
    | error fault => rfl
    | ok t => cases t <;> rfl
  rw [← hmade, ← hdirectory]
  rfl

/-- What is on the way below a root has a path if what it leads to has one. -/
theorem Based.isPath_of_append (h : Based fs root R n) (hne : p ≠ []) (hp : Parted (p ++ q))
    (hpath : IsPath (Path.below root (relative (p ++ q)))) :
    IsPath (Path.below root (relative p)) :=
  hpath.of_isPrefix (below_ne_empty h.ne_empty hp.of_append_left) (isPrefix_below h.ne_empty hne hp)

section Below

variable (hp : Parted (p ++ [name])) (hnul : '\x00' ∉ name.toList) (hlink : Unlinked n (p ++ [name]))

include hp hnul hlink

/-- **A directory is made below a root as the directory there tells.** -/
theorem exists_ensured :
    ∃ result : Except Files.Fault Node,
      (∀ n', result = .ok n' → Grows n n' ∧ Paved (p ++ [name]) n n') ∧
      (n.isDirectory = true → p = [] → result ≠ .error .notFound) ∧
      ∀ fs root R, Based fs root R n → fs.root.Sound →
        IsPath (Path.below root (relative (p ++ [name]))) →
        fs.ensured (Path.below root (relative (p ++ [name]))) = result.map (fs.within R) := by
  rcases Files.reach_cases hp hlink with
    ⟨front, last, heq, hreach, hsearch, hstep, hnone⟩ | ⟨c, hreach, hc, -⟩ | ⟨fault, hreach⟩
  · -- nothing is there
    obtain ⟨rfl, hlast⟩ := List.append_inj' heq rfl
    obtain rfl := (List.cons.inj hlast).1
    obtain ⟨m, es, hfront, hallows⟩ := Files.searchable_iff.1 hsearch
    have hname := isName_of_isEntryStep hp.last hnul hstep
    by_cases hwrite : (Node.directory m es).allows .write = true
    · refine ⟨.ok (n.put (p ++ [name]) Node.emptyDirectory), ?_, (fun _ _ h ↦ by cases h), ?_⟩
      · rintro _ ⟨⟩
        exact ⟨.put hfront hname hnone Node.sound_emptyDirectory rfl rfl rfl,
          .put hfront hwrite hallows hnone⟩
      · intro fs root R h hs hpath
        rw [h.ensured_eq hp hlink hpath, hreach]
        dsimp only [Except.map, Files.Target.under, withDirectoryAt]
        rw [h.mayChange_append hfront, hwrite, hallows, ← h.within_put hs hfront hname
          Node.sound_emptyDirectory]
        rfl
    · refine ⟨.error .denied, (fun _ h ↦ by cases h), (fun _ _ h ↦ by cases h),
        fun fs root R h hs hpath ↦ ?_⟩
      rw [h.ensured_eq hp hlink hpath, hreach]
      dsimp only [Except.map, Files.Target.under, withDirectoryAt, leadsToDirectory]
      rw [h.mayChange_append hfront, Bool.eq_false_iff.2 hwrite]
      rfl
  · -- something is there
    by_cases hdir : c.isDirectory = true
    · refine ⟨.ok n, ?_, (fun _ _ h ↦ by cases h), fun fs root R h hs hpath ↦ ?_⟩
      · rintro _ ⟨⟩
        exact ⟨.refl n, .refl _ n⟩
      · rw [h.ensured_eq hp hlink hpath, hreach]
        simp only [Except.map, Files.Target.under, withDirectoryAt, leadsToDirectory, hdir, if_true,
          h.within_self hs]
    · refine ⟨.error .taken, (fun _ h ↦ by cases h), (fun _ _ h ↦ by cases h),
        fun fs root R h hs hpath ↦ ?_⟩
      rw [h.ensured_eq hp hlink hpath, hreach]
      simp only [Except.map, Files.Target.under, withDirectoryAt, leadsToDirectory,
        Bool.eq_false_iff.2 hdir, Bool.false_eq_true, if_false]
  · -- the way does not lead so far
    refine ⟨.error fault, (fun _ h ↦ by cases h), fun hdir hone ↦ ?_, fun fs root R h hs hpath ↦ ?_⟩
    · subst hone
      rintro ⟨⟩
      exact Files.reach_singleton_ne_notFound hdir hp.last hlink hreach
    · rw [h.ensured_eq hp hlink hpath, hreach]
      rfl

/-- **A file is written below a root as the directory there tells**, if it has no name elsewhere. -/
theorem exists_write (b : Text.Bytes) :
    ∃ (result : Except Files.Fault Unit) (n' : Node), Grows n n' ∧
      (IsOnly n (p ++ [name]) → Beside (p ++ [name]) n n') ∧
      ∀ fs root R, Based fs root R n → fs.root.Sound →
        IsPath (Path.below root (relative (p ++ [name]))) → Owned fs R n (p ++ [name]) →
        perform (Files.write (Path.below root (relative (p ++ [name]))) b) fs =
          (result, fs.within R n') := by
  rcases Files.reach_cases hp hlink with
    ⟨front, last, heq, hreach, hsearch, hstep, hnone⟩ | ⟨c, hreach, hc, hno⟩ | ⟨fault, hreach⟩
  · -- nothing is there
    obtain ⟨rfl, hlast⟩ := List.append_inj' heq rfl
    obtain rfl := (List.cons.inj hlast).1
    obtain ⟨m, es, hfront, hallows⟩ := Files.searchable_iff.1 hsearch
    have hname := isName_of_isEntryStep hp.last hnul hstep
    by_cases hwrite : (Node.directory m es).allows .write = true
    · refine ⟨.ok (), n.put (p ++ [name]) (.file Node.fileMode b 0),
        .put hfront hname hnone (.file _ _ _) rfl rfl rfl, fun _ ↦ .put hfront hnone rfl,
        fun fs root R h hs hpath _ ↦ ?_⟩
      rw [Files.perform_write, h.find_eq_reach hp hpath hlink, hreach]
      dsimp only [Except.map, Files.Target.under]
      rw [h.mayChange_append hfront, hwrite, hallows,
        ← h.within_put hs hfront hname (.file _ _ _)]
      rfl
    · refine ⟨.error .denied, n, .refl n, fun _ ↦ .refl _ n, fun fs root R h hs hpath _ ↦ ?_⟩
      rw [Files.perform_write, h.find_eq_reach hp hpath hlink, hreach, h.within_self hs]
      dsimp only [Except.map, Files.Target.under]
      rw [h.mayChange_append hfront, Bool.eq_false_iff.2 hwrite]
      rfl
  · -- something is there
    cases c with
    | file m old i =>
      by_cases hwrite : (Node.file m old i).allows .write = true
      · refine ⟨.ok (), n.alterFile (p ++ [name]) (Node.withBytes b), .alterFile hc b,
          fun honly ↦ .alterFile hc honly b, fun fs root R h hs hpath howned ↦ ?_⟩
        rw [Files.perform_write, h.find_eq_reach hp hpath hlink, hreach]
        dsimp only [Except.map, Files.Target.under]
        rw [if_pos hwrite, Node.alterFile_append hs h.at?_eq hc
          (fun hi q m' b' ↦ howned m old i hc hi q m' b') b]
        rfl
      · refine ⟨.error .denied, n, .refl n, fun _ ↦ .refl _ n, fun fs root R h hs hpath _ ↦ ?_⟩
        rw [Files.perform_write, h.find_eq_reach hp hpath hlink, hreach, h.within_self hs]
        dsimp only [Except.map, Files.Target.under]
        rw [if_neg hwrite]
    | directory m es =>
      refine ⟨.error .isDirectory, n, .refl n, fun _ ↦ .refl _ n, fun fs root R h hs hpath _ ↦ ?_⟩
      rw [Files.perform_write, h.find_eq_reach hp hpath hlink, hreach, h.within_self hs]
      rfl
    | device d =>
      refine ⟨.ok (), n, .refl n, fun _ ↦ .refl _ n, fun fs root R h hs hpath _ ↦ ?_⟩
      rw [Files.perform_write, h.find_eq_reach hp hpath hlink, hreach, h.within_self hs]
      rfl
    | link target => exact nomatch hno
  · -- the way does not lead so far
    refine ⟨.error fault, n, .refl n, fun _ ↦ .refl _ n, fun fs root R h hs hpath _ ↦ ?_⟩
    rw [Files.perform_write, h.find_eq_reach hp hpath hlink, hreach, h.within_self hs]
    rfl

end Below

/-- Making the directories on the way to a place comes to a result, and to another directory, wherever
the directory is. -/
def MakesBelow (n : Node) (p : Place) (result : Except Files.Fault Unit) (n' : Node) : Prop :=
  ∀ fs root R levels, Based fs root R n → fs.root.Sound →
    IsPath (Path.below root (relative p)) → p.length ≤ levels →
    Makes levels fs (Path.below root (relative p)) result (fs.within R n')

/-- Where something above is missing, what is above is made first. -/
theorem exists_makes_above (hp : Parted (p ++ [name])) (hne : p ≠ []) (hnul : '\x00' ∉ name.toList)
    (hlink : Unlinked n (p ++ [name]))
    (hmissing : ∀ fs root R, Based fs root R n → fs.root.Sound →
      IsPath (Path.below root (relative (p ++ [name]))) →
      fs.ensured (Path.below root (relative (p ++ [name]))) = .error .notFound)
    {above : Except Files.Fault Unit} {n₁ : Node} (hgrows₁ : Grows n n₁) (hpaved₁ : Paved p n n₁)
    (habove : MakesBelow n p above n₁) :
    ∃ (result : Except Files.Fault Unit) (n' : Node), Grows n n' ∧ Paved (p ++ [name]) n n' ∧
      MakesBelow n (p ++ [name]) result n' := by
  replace hpaved₁ : Paved (p ++ [name]) n n₁ := hpaved₁.mono (List.prefix_append ..)
  have hmore : ∀ {fs : Files} {root : String} {R : Place} {levels : Nat},
      Based fs root R n → fs.root.Sound → IsPath (Path.below root (relative (p ++ [name]))) →
      (p ++ [name]).length ≤ levels → ∃ fewer, levels = fewer + 1 ∧
        Makes fewer fs (Path.below root (relative p)) above (fs.within R n₁) := by
    intro fs root R levels h hs hpath hlevels
    obtain ⟨fewer, rfl, hfewer⟩ := exists_fewer hlevels
    exact ⟨fewer, rfl, habove fs root R fewer h hs (h.isPath_of_append hne hp hpath) hfewer⟩
  cases above with
  | error e =>
    refine ⟨.error e, n₁, hgrows₁, hpaved₁, fun fs root R levels h hs hpath hlevels ↦ ?_⟩
    obtain ⟨fewer, rfl, hmakes⟩ := hmore h hs hpath hlevels
    exact .aboveFails (below_ne_empty h.ne_empty hp) (hmissing fs root R h hs hpath)
      (parent?_below h.ne_empty hne hp) hmakes
  | ok _ =>
    -- then the directory is tried once more
    obtain ⟨second, hgrows₂, -, hsecond⟩ := exists_ensured hp hnul (hgrows₁.unlinked hlink)
    have hend : ∀ {fs : Files} {root : String} {R : Place}, Based fs root R n →
        fs.root.Sound → IsPath (Path.below root (relative (p ++ [name]))) →
        (fs.within R n₁).ensured (Path.below root (relative (p ++ [name]))) =
          second.map (fs.within R) := by
      intro fs root R h hs hpath
      have hn₁ := hgrows₁.sound (h.sound hs)
      rw [hsecond _ root R (h.within hgrows₁) (h.sound_within hs hn₁) hpath]
      cases second with
      | error e => rfl
      | ok n₂ => exact congrArg Except.ok (h.within_within hs hn₁ ((hgrows₂ n₂ rfl).1.sound hn₁))
    cases second with
    | ok n₂ =>
      obtain ⟨hgrows₂, hpaved₂⟩ := hgrows₂ n₂ rfl
      refine ⟨.ok (), n₂, hgrows₁.trans hgrows₂, hpaved₁.trans hpaved₂,
        fun fs root R levels h hs hpath hlevels ↦ ?_⟩
      obtain ⟨fewer, rfl, hmakes⟩ := hmore h hs hpath hlevels
      exact .after (below_ne_empty h.ne_empty hp) (hmissing fs root R h hs hpath)
        (parent?_below h.ne_empty hne hp) hmakes (hend h hs hpath)
    | error e =>
      refine ⟨.error e, n₁, hgrows₁, hpaved₁, fun fs root R levels h hs hpath hlevels ↦ ?_⟩
      obtain ⟨fewer, rfl, hmakes⟩ := hmore h hs hpath hlevels
      exact .afterFails (below_ne_empty h.ne_empty hp) (hmissing fs root R h hs hpath)
        (parent?_below h.ne_empty hne hp) hmakes (hend h hs hpath)

/-- **A directory and those above it are made below a root as the directory there tells.** -/
theorem exists_makes (hp : Parted p) (hne : p ≠ []) (hnul : ∀ name ∈ p, '\x00' ∉ name.toList)
    (hlink : Unlinked n p) (hdir : n.isDirectory = true) :
    ∃ (result : Except Files.Fault Unit) (n' : Node), Grows n n' ∧ Paved p n n' ∧
      MakesBelow n p result n' := by
  induction p using List.reverseRecOn with
  | nil => exact absurd rfl hne
  | append_singleton front name ih =>
    have hname := hnul name (List.mem_append_right _ (List.mem_singleton_self name))
    obtain ⟨first, hgrows, hsingle, hfirst⟩ := exists_ensured hp hname hlink
    cases first with
    | ok n' =>
      obtain ⟨hgrows, hpaved⟩ := hgrows n' rfl
      refine ⟨.ok (), n', hgrows, hpaved, fun fs root R levels h hs hpath _ ↦ ?_⟩
      exact .there (hfirst fs root R h hs hpath)
    | error fault =>
      by_cases hfault : fault = .notFound
      · subst hfault
        have hfront : front ≠ [] := fun heq ↦ hsingle hdir heq rfl
        obtain ⟨above, n₁, hgrows₁, hpaved₁, habove⟩ := ih hp.of_append_left hfront
          (fun step hstep ↦ hnul step (List.mem_append_left _ hstep))
          (hlink.of_isPrefix (List.prefix_append ..))
        exact exists_makes_above hp hfront hname hlink hfirst hgrows₁ hpaved₁ habove
      · refine ⟨.error fault, n, .refl n, .refl _ n, fun fs root R levels h hs hpath _ ↦ ?_⟩
        rw [h.within_self hs]
        exact .fails (hfirst fs root R h hs hpath)
          (.inr ⟨below_ne_empty h.ne_empty hp, .inl hfault⟩)

end Transfer
end FirmwareLane
