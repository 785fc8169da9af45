import FirmwareLane.Proofs.Transfer.Fitting
import FirmwareLane.Proofs.Transfer.Twins

/-!
# Restoring entries one after another

Restoring an entry succeeds exactly if its path can be followed and its file fits
(`exists_restoreEntry`).  That it fits is read off a success backwards, from the file that is written
to the directories that were made for it; the other way round the lemmas on `restoreEntry` apply.

Entries one after another succeed exactly if there is room for all of them, which does not depend on
their order (`exists_restoreEntries`).  What a failing one did before it failed is seen on the way to
its place only.
-/

set_option autoImplicit false
namespace FirmwareLane
namespace Transfer

open Action (perform)
open Files (Beside Changeable Grows IsOnly IsPath Paved Searchable Unlinked)
open Text (Bytes)

variable {fs : Files} {root name : String} {R p q : Place} {n n' : Node} {content : Content}

/-! ## One entry that fits -/

/-- What is seen below a root when the directory there is another one. -/
theorem Based.faceAt?_of_within (h : Based fs root R n) {tree : Node}
    (htree : { fs with root := tree } = fs.within R n') (q : Place) :
    n'.faceAt? q = tree.faceAt? (R ++ q) := by
  have hroot : tree = fs.root.put R n' := congrArg Files.root htree
  rw [hroot, (Node.holds_of_at? h.at?_eq).faceAt?_put_append]

theorem Based.rooted_of_fits (h : Based fs root R n) (hfits : Fits n p) : Rooted fs root R := by
  have hself := (hfits.way [] List.nil_prefix (hfits.ne_nil h.isDirectory).symm).resolve_left
    (Option.some_ne_none _)
  rw [← searchable_append h.at?_eq, List.append_nil] at hself
  exact ⟨h.standing, ⟨n, h.find_eq⟩, hself⟩

/-- A new file, with the directories on the way to it. -/
theorem restored_of_planted (h : Based fs root R n) {b : Bytes} {tree : Node}
    (hplanted : Planted fs.root R p name b tree)
    (htree : { fs with root := tree } = fs.within R n') (hnone : n.at? (p ++ [name]) = none) :
    Restored [(p ++ [name], b)] n n' where
  file x hx := by
    obtain rfl := List.mem_singleton.1 hx
    rw [h.faceAt?_of_within htree, ← List.append_assoc, hplanted.file, Node.faceAt?_eq_none.2 hnone]
    rfl
  made q hq hway := by
    obtain ⟨x, hx, hqx, hne⟩ := hway
    obtain rfl := List.mem_singleton.1 hx
    rw [h.faceAt?_of_within htree]
    have hfront := (List.prefix_concat_iff.1 hqx).resolve_left hne
    exact hplanted.made q hfront (by rwa [Node.faceAt?_append h.at?_eq])
  kept q hne hold := by
    rw [h.faceAt?_of_within htree]
    cases hq : n.faceAt? q with
    | some c => exact hplanted.kept _ c (by rwa [Node.faceAt?_append h.at?_eq])
    | none =>
      have hbeside := (hold.resolve_left (absurd hq)) _ (List.mem_singleton_self _)
      refine hplanted.absent _ (by rwa [Node.faceAt?_append h.at?_eq]) fun a ha heq ↦ hbeside ?_
      rwa [List.append_cancel_left heq]

/-- Other bytes in a file that has no other name. -/
theorem restored_of_alterFile (h : Based fs root R n) {m i : Nat} {b old : Bytes}
    (hfile : n.at? (p ++ [name]) = some (.file m old i)) (honly : IsOnly n (p ++ [name]))
    (htree : { fs with root := fs.root.alterFile (R ++ p ++ [name]) (Node.withBytes b) } =
      fs.within R n') : Restored [(p ++ [name], b)] n n' := by
  have hfile' : fs.root.at? (R ++ p ++ [name]) = some (.file m old i) := by
    rw [List.append_assoc, Node.at?_append, h.at?_eq]
    exact hfile
  have hface : ∀ q, n'.faceAt? q =
      (n.faceAt? q).map (Node.rewritten (R ++ p ++ [name]) i b (R ++ q)) := by
    intro q
    rw [h.faceAt?_of_within htree, Node.faceAt?_alterFile hfile', Node.faceAt?_append h.at?_eq]
  refine ⟨fun x hx ↦ ?_, fun q hq hway ↦ ?_, fun q hne _ ↦ ?_⟩
  · obtain rfl := List.mem_singleton.1 hx
    rw [hface, Node.faceAt?_eq_file.2 hfile, Option.map_some, Node.rewritten,
      if_pos (.inl (List.append_assoc ..).symm)]
    rfl
  · obtain ⟨x, hx, hqx, -⟩ := hway
    obtain rfl := List.mem_singleton.1 hx
    have hthere : n.at? ([] ++ (p ++ [name])) ≠ none := by
      rw [List.nil_append, hfile]
      exact Option.some_ne_none _
    exact absurd hq (faceAt?_ne_none_of_isPrefix (R := []) hqx hthere)
  · have hne := hne _ (List.mem_singleton_self _)
    rw [hface]
    refine Node.map_rewritten_eq_self (fun heq ↦ hne ?_) (fun m' b' hc ↦ ?_) b
    · rw [List.append_assoc] at heq
      exact List.append_cancel_left heq
    · by_contra hi
      exact hne (honly m old i hfile hi q m' b' hc)

/-- **An entry that fits is restored.** -/
theorem Fits.restored (h : Based fs root R n) (hs : fs.root.Sound) (hfits : Fits n p)
    (hpath : IsPath (Path.below root (relative p))) (honly : IsOnly n p) (content : Content) :
    (perform (restoreEntry root ⟨relative p, content⟩) fs).1 = .ok () ∧
      ∀ n', (perform (restoreEntry root ⟨relative p, content⟩) fs).2 = fs.within R n' →
        Restored [(p, written content)] n n' := by
  have hrooted := h.rooted_of_fits hfits
  obtain ⟨front, name, rfl⟩ := (List.eq_nil_or_concat' p).resolve_left (hfits.ne_nil h.isDirectory)
  have hclear := hfits.clear h.at?_eq
  have hplace : fs.root.at? (R ++ front ++ [name]) = n.at? (front ++ [name]) := by
    rw [List.append_assoc, Node.at?_append, h.at?_eq]
    rfl
  cases hat : n.at? (front ++ [name]) with
  | none =>
    have hroom : fs.root.faceAt? (R ++ front) = none ∨ Changeable fs.root (R ++ front) := by
      rw [Node.faceAt?_append h.at?_eq, changeable_append h.at?_eq]
      by_cases hfront : n.faceAt? front = none
      · exact .inl hfront
      · exact .inr (hfits.room front name List.prefix_rfl hfront (Node.faceAt?_eq_none.2 hat))
    obtain ⟨tree, hperform, hplanted, -⟩ := restoreEntry_vacant hrooted hfits.named hpath.size hclear
      hroom (hplace.trans hat) hs content
    rw [hperform]
    exact ⟨rfl, fun n' htree ↦ restored_of_planted h hplanted htree hat⟩
  | some c =>
    have hface : n.faceAt? (front ++ [name]) = some c.face := congrArg (Option.map Node.face) hat
    obtain ⟨hisFile, hallows⟩ := hfits.file _ hface
    rw [Node.allows_face] at hallows
    cases c with
    | file m old i =>
      have hthere : fs.root.at? (R ++ front) ≠ none := by
        obtain ⟨k, es, habove⟩ := Node.exists_directory_of_at? (List.cons_ne_nil name [])
          (hplace.trans hat)
        rw [habove]
        exact Option.some_ne_none _
      have hperform := restoreEntry_present hrooted hfits.named hpath.size (hclear.passable hthere)
        (hplace.trans hat) content hallows
      rw [hperform]
      exact ⟨rfl, fun n' htree ↦ restored_of_alterFile h hat honly htree⟩
    | directory m es => cases hisFile
    | link target => cases hisFile
    | device d => cases hisFile

/-! ## Any entry -/

section Entry

variable (h : Based fs root R n) (hs : fs.root.Sound) (hp : Parted p) (hne : p ≠ [])
  (hlink : Unlinked n p)

include h hs hp hne hlink

/-- The directories above a file are made below the root. -/
theorem exists_makeAbove :
    ∃ n', (perform (makeAbove (Path.below root (relative p))) fs).2 = fs.within R n' ∧
      Grows n n' ∧ Paved p n n' := by
  have hself : ∃ n', fs = fs.within R n' ∧ Grows n n' ∧ Paved p n n' :=
    ⟨n, (h.within_self hs).symm, .refl n, .refl p n⟩
  obtain ⟨front, name, rfl⟩ := (List.eq_nil_or_concat' p).resolve_left hne
  by_cases hfront : front = []
  · -- the directory above is that of the root
    subst hfront
    obtain ⟨parent, hparent, hdir⟩ := h.isDirectory_parent hp.last
    simp only [List.nil_append, makeAbove, hparent, Files.describing, Action.perform_adapt,
      Files.createAll_of_isDirectory h.standing hdir]
    exact hself
  · have hparted := hp.of_append_left
    simp only [makeAbove, parent?_below h.ne_empty hfront hp, Files.describing, Action.perform_adapt]
    cases hno : Files.unusable? (Path.below root (relative front)) with
    | some fault =>
      obtain ⟨above, last, rfl⟩ := (List.eq_nil_or_concat' front).resolve_left hfront
      rw [h.createAll_of_unusable? hparted hno]
      exact hself
    | none =>
      have hpath := Files.isPath_of_unusable? (below_ne_empty h.ne_empty hparted) hno
      obtain ⟨result, n', hgrows, hpaved, hmakes⟩ := exists_makes hparted hfront
        (h.not_nul_of_isPath hparted hpath) (hlink.of_isPrefix (List.prefix_append ..)) h.isDirectory
      have hlevels := Nat.le_succ_of_le (length_le_below h.ne_empty hparted)
      refine ⟨n', ?_, hgrows, hpaved.mono (List.prefix_append ..)⟩
      rw [Files.createAll, (hmakes fs root R _ h hs hpath hlevels).perform_eq]

/-- A file that can be written fits. -/
theorem fits_of_write {b : Bytes} {fs' : Files} (hdevice : ∀ d, n.at? p ≠ some (.device d))
    (hwrite : perform (Files.write (Path.below root (relative p)) b) fs = (.ok (), fs')) :
    IsPath (Path.below root (relative p)) ∧ Fits n p := by
  obtain ⟨front, name, rfl⟩ := (List.eq_nil_or_concat' p).resolve_left hne
  have hpath := Files.isPath_of_write hwrite
  refine ⟨hpath, ?_⟩
  have hsound := h.sound hs
  rw [Files.perform_write, h.find_eq_reach hp hpath hlink] at hwrite
  rcases Files.reach_cases hp hlink with
    ⟨front', last, heq, hreach, -, hstep, hnone⟩ | ⟨c, hreach, hc, hno⟩ | ⟨fault, hreach⟩
  · -- nothing is there
    obtain ⟨rfl, hsame⟩ := List.append_inj' heq rfl
    obtain rfl := (List.cons.inj hsame).1
    have hsearch : ∀ q, q <+: front → Searchable n q :=
      fun q hq ↦ Files.searchable_of_reach hp hreach hq
    obtain ⟨m, es, hat, hallows⟩ := Files.searchable_iff.1 (hsearch front List.prefix_rfl)
    rw [hreach] at hwrite
    dsimp only [Except.map, Files.Target.under] at hwrite
    rw [h.mayChange_append hat, hallows, Bool.and_true] at hwrite
    have hmay : (Node.directory m es).allows .write = true := by
      by_contra hno
      rw [if_neg hno] at hwrite
      cases hwrite
    have hnul := h.not_nul_of_isPath hp hpath name (by simp)
    have hnamed : Named (front ++ [name]) := by
      intro step hstep'
      rcases List.mem_append.1 hstep' with hstep' | hstep'
      · exact (hsound.at? hat).1 step hstep'
      · exact List.mem_singleton.1 hstep' ▸ isName_of_isEntryStep hp.last hnul hstep
    exact .of_absent hnamed hsearch ⟨m, Node.faceAt?_eq_directory.2 ⟨es, hat⟩, hmay, hallows⟩
      (Node.faceAt?_eq_none.2 hnone)
  · -- something is there
    rw [hreach] at hwrite
    dsimp only [Except.map, Files.Target.under] at hwrite
    cases c with
    | file m old i =>
      refine .of_present (hsound.at? hc).1 (fun q hq ↦ Files.searchable_of_reach hp hreach hq) hc ?_
      by_contra hno
      dsimp only at hwrite
      rw [if_neg hno] at hwrite
      cases hwrite
    | directory m es => cases hwrite
    | link target => cases hno
    | device d => exact absurd hc (hdevice d)
  · rw [hreach] at hwrite
    cases hwrite

/-- An entry is restored below the root, and nothing changes but on the way to its place; and it is
restored only if it fits. -/
theorem exists_within (howned : Owned fs R n p) (honly : IsOnly n p)
    (hdevice : ∀ d, n.at? p ≠ some (.device d)) (content : Content) :
    ∃ n', (perform (restoreEntry root ⟨relative p, content⟩) fs).2 = fs.within R n' ∧
      Grows n n' ∧ Beside p n n' ∧
      ((perform (restoreEntry root ⟨relative p, content⟩) fs).1 = .ok () →
        IsPath (Path.below root (relative p)) ∧ Fits n p) := by
  rw [restoreEntry_relative root hp content]
  obtain ⟨n₁, hmade, hgrows, hpaved⟩ := exists_makeAbove h hs hp hne hlink
  rcases hx : perform (makeAbove (Path.below root (relative p))) fs with ⟨fault | _, fs₁⟩
  · rw [hx] at hmade
    rw [Action.perform_bind_error hx]
    exact ⟨n₁, hmade, hgrows, hpaved.beside, fun hok ↦ by cases hok⟩
  · rw [hx] at hmade
    obtain rfl : fs₁ = fs.within R n₁ := hmade
    rw [Action.perform_bind_ok hx, Files.describing, Action.perform_adapt]
    have hsite := (Site.singleton h hs hlink howned).within hgrows
    have hlink₁ := hgrows.unlinked hlink
    have hdevice₁ := hpaved.not_device hdevice
    cases hno : Files.unusable? (Path.below root (relative p)) with
    | some fault =>
      rw [Files.perform_write, Files.find_of_unusable? (below_ne_empty h.ne_empty hp) hno]
      exact ⟨n₁, rfl, hgrows, hpaved.beside, fun hok ↦ by cases hok⟩
    | none =>
      have hpath := Files.isPath_of_unusable? (below_ne_empty h.ne_empty hp) hno
      have hfits : ∀ {fs' : Files}, perform (Files.write (Path.below root (relative p))
          (written content)) (fs.within R n₁) = (.ok (), fs') → Fits n p := by
        intro fs' hwrite
        have hwritten := fits_of_write hsite.based hsite.sound hp hne hlink₁ hdevice₁ hwrite
        exact hwritten.2.of_paved hpaved
      obtain ⟨front, name, rfl⟩ := (List.eq_nil_or_concat' p).resolve_left hne
      have hname := h.not_nul_of_isPath hp hpath name
        (List.mem_append_right _ (List.mem_singleton_self name))
      obtain ⟨result, n₂, hgrows₂, hbeside, hact⟩ := exists_write hp hname hlink₁ (written content)
      have hwrite := hact _ root R hsite.based hsite.sound hpath
        (hsite.owned _ List.mem_cons_self)
      have hn₁ := hgrows.sound (h.sound hs)
      rw [h.within_within hs hn₁ (hgrows₂.sound hn₁)] at hwrite
      rw [hwrite] at hfits ⊢
      refine ⟨n₂, rfl, hgrows.trans hgrows₂, hpaved.beside.trans (hbeside (honly.of_grows hgrows)),
        fun hok ↦ ⟨hpath, hfits (Prod.ext (Outcome.mapError_eq_ok.1 hok) rfl)⟩⟩

/-- **What restoring an entry comes to.**  It succeeds exactly if the entry fits and its path can be
followed; and whether it does or not, nothing changes but on the way to its place. -/
theorem exists_restoreEntry (howned : Owned fs R n p) (honly : IsOnly n p)
    (hdevice : ∀ d, n.at? p ≠ some (.device d)) (content : Content) :
    ∃ n', (perform (restoreEntry root ⟨relative p, content⟩) fs).2 = fs.within R n' ∧
      Grows n n' ∧ Beside p n n' ∧
      ((perform (restoreEntry root ⟨relative p, content⟩) fs).1 = .ok () ↔
        IsPath (Path.below root (relative p)) ∧ Fits n p) ∧
      ((perform (restoreEntry root ⟨relative p, content⟩) fs).1 = .ok () →
        Restored [(p, written content)] n n') := by
  obtain ⟨n', hfiles, hgrows, hbeside, hok⟩ :=
    exists_within h hs hp hne hlink howned honly hdevice content
  refine ⟨n', hfiles, hgrows, hbeside, ⟨hok, ?_⟩, fun hsuccess ↦ ?_⟩
  · rintro ⟨hpath, hfits⟩
    exact (hfits.restored h hs hpath honly content).1
  · obtain ⟨hpath, hfits⟩ := hok hsuccess
    exact (hfits.restored h hs hpath honly content).2 n' hfiles

end Entry

/-! ## All entries -/

/-- A place below the root can be written without a change elsewhere: no link is on the way to it, and
what stands there is no device and no file that has another name. -/
structure Clean (fs : Files) (R : Place) (n : Node) (p : Place) : Prop where
  unlinked : Unlinked n p
  only : ∀ m b i, n.at? p = some (.file m b i) → i ≠ 0 →
    ∀ q m' b', fs.root.at? q = some (.file m' b' i) → q = R ++ p
  device : ∀ d, n.at? p ≠ some (.device d)

namespace Clean

theorem owned (h : Clean fs R n p) : Owned fs R n p := by
  intro m b i hp hi q m' b' hq
  rw [h.only m b i hp hi q m' b' hq]
  exact List.prefix_append ..

theorem isOnly (h : Clean fs R n p) (hR : fs.root.at? R = some n) : IsOnly n p := by
  intro m b i hp hi q m' b' hq
  have hq' : fs.root.at? (R ++ q) = some (.file m' b' i) := by
    rw [Node.at?_append, hR]
    exact hq
  exact List.append_cancel_left (h.only m b i hp hi _ m' b' hq')

/-- A place can be written still when another file was restored. -/
theorem within {files : List (Place × Bytes)} (h : Clean fs R n p) (hbased : Based fs root R n)
    (hs : fs.root.Sound) (hgrows : Grows n n') (hrestored : Restored files n n') :
    Clean (fs.within R n') R n' p where
  unlinked := hgrows.unlinked h.unlinked
  device := hrestored.not_device h.device
  only m b i hp hi q m' b' hq := by
    have hsite := (Site.singleton hbased hs h.unlinked h.owned).within hgrows
    obtain ⟨a, rfl⟩ := hsite.owned p List.mem_cons_self m b i hp hi q m' b' hq
    rw [Files.root_within, (Node.holds_of_at? hbased.at?_eq).at?_put_append] at hq
    rw [((h.isOnly hbased.at?_eq).of_grows hgrows) m b i hp hi a m' b' hq]

end Clean

/-- There is room for entries: their paths can be followed, and their files fit and are apart. -/
structure Room (root : String) (n : Node) (entries : List (Place × Content)) : Prop where
  isPath : ∀ x ∈ entries, IsPath (Path.below root (relative x.1))
  fits : ∀ x ∈ entries, Fits n x.1
  apart : entries.Pairwise fun x y ↦ Apart x.1 y.1

variable {x : Place × Content} {entries entries' : List (Place × Content)}

theorem Room.perm (h : Room root n entries) (hperm : entries.Perm entries') :
    Room root n entries' where
  isPath x hx := h.isPath x (hperm.mem_iff.2 hx)
  fits x hx := h.fits x (hperm.mem_iff.2 hx)
  apart := (hperm.pairwise_iff fun hxy ↦ And.intro hxy.2 hxy.1).1 h.apart

/-- There is room for entries after another one exactly if there is room for all of them. -/
theorem room_cons {b : Bytes} (hx : IsPath (Path.below root (relative x.1))) (hfits : Fits n x.1)
    (hne : ∀ y ∈ entries, x.1 ≠ y.1) (h : Restored [(x.1, b)] n n') :
    Room root n' entries ↔ Room root n (x :: entries) := by
  have hstep := fun y hy ↦ h.fits_iff hfits (hne y hy)
  constructor
  · intro hroom
    refine ⟨List.forall_mem_cons.2 ⟨hx, hroom.isPath⟩, List.forall_mem_cons.2 ⟨hfits, fun y hy ↦ ?_⟩,
      List.pairwise_cons.2 ⟨fun y hy ↦ ?_, hroom.apart⟩⟩
    · exact ((hstep y hy).1 (hroom.fits y hy)).1
    · exact ((hstep y hy).1 (hroom.fits y hy)).2
  · intro hroom
    obtain ⟨hapart, hrest⟩ := List.pairwise_cons.1 hroom.apart
    refine ⟨fun y hy ↦ hroom.isPath y (List.mem_cons_of_mem _ hy), fun y hy ↦ ?_, hrest⟩
    exact (hstep y hy).2 ⟨hroom.fits y (List.mem_cons_of_mem _ hy), hapart y hy⟩

/-- The entry for a place. -/
def entryAt (x : Place × Content) : Entry := ⟨relative x.1, x.2⟩

/-- The bytes that are written at a place. -/
def writtenAt (x : Place × Content) : Place × Bytes := (x.1, written x.2)

/-- **What restoring entries comes to.**  It succeeds exactly if there is room for them, and whether it
does or not, nothing changes but on the way to their places. -/
theorem exists_restoreEntries (h : Based fs root R n) (hs : fs.root.Sound)
    (hclean : ∀ x ∈ entries, Clean fs R n x.1) (hparted : ∀ x ∈ entries, Parted x.1 ∧ x.1 ≠ [])
    (hnodup : (entries.map Prod.fst).Nodup) :
    ∃ n', (perform ((entries.map entryAt).forM (restoreEntry root)) fs).2 = fs.within R n' ∧
      Grows n n' ∧ (∀ q, (∀ x ∈ entries, ¬ q <+: x.1) → n'.faceAt? q = n.faceAt? q) ∧
      ((perform ((entries.map entryAt).forM (restoreEntry root)) fs).1 = .ok () ↔
        Room root n entries) ∧
      ((perform ((entries.map entryAt).forM (restoreEntry root)) fs).1 = .ok () →
        Restored (entries.map writtenAt) n n') := by
  induction entries generalizing fs n with
  | nil =>
    refine ⟨n, (h.within_self hs).symm, .refl n, fun _ _ ↦ rfl, iff_of_true rfl ⟨?_, ?_, .nil⟩,
      fun _ ↦ .nil n⟩
    · exact fun _ hx ↦ absurd hx List.not_mem_nil
    · exact fun _ hx ↦ absurd hx List.not_mem_nil
  | cons x rest ih =>
    obtain ⟨hx, hrest⟩ := List.forall_mem_cons.1 hclean
    obtain ⟨hpartedx, hpartedrest⟩ := List.forall_mem_cons.1 hparted
    obtain ⟨hnew, hnoduprest⟩ := List.nodup_cons.1 hnodup
    have hne : ∀ y ∈ rest, x.1 ≠ y.1 := fun y hy heq ↦ hnew (heq ▸ List.mem_map_of_mem hy)
    obtain ⟨n₁, hfiles, hgrows, hbeside, hok, hrestored⟩ := exists_restoreEntry h hs hpartedx.1
      hpartedx.2 hx.unlinked hx.owned (hx.isOnly h.at?_eq) hx.device x.2
    rw [List.map_cons, Action.perform_forM_cons]
    change (perform (restoreEntry root (entryAt x)) fs).2 = _ at hfiles
    change (perform (restoreEntry root (entryAt x)) fs).1 = _ ↔ _ at hok
    change (perform (restoreEntry root (entryAt x)) fs).1 = _ → _ at hrestored
    rcases hstep : perform (restoreEntry root (entryAt x)) fs with ⟨fault | _, fs₁⟩
    · -- the first entry fails
      rw [hstep] at hfiles hok
      rw [Action.perform_bind_error hstep]
      refine ⟨n₁, hfiles, hgrows, fun q hq ↦ hbeside q (hq x List.mem_cons_self),
        iff_of_false (by rintro ⟨⟩) fun hroom ↦ ?_, fun hno ↦ by cases hno⟩
      have hno := hok.2 ⟨hroom.isPath x List.mem_cons_self, hroom.fits x List.mem_cons_self⟩
      cases hno
    · rw [hstep] at hfiles hok hrestored
      obtain rfl : fs₁ = fs.within R n₁ := hfiles
      obtain ⟨hpath, hfits⟩ := hok.1 rfl
      replace hrestored := hrestored rfl
      rw [Action.perform_bind_ok hstep]
      have hn₁ := hgrows.sound (h.sound hs)
      obtain ⟨n₂, hfiles₂, hgrows₂, hbeside₂, hok₂, hrestored₂⟩ := ih (h.within hgrows)
        (h.sound_within hs hn₁) (fun y hy ↦ (hrest y hy).within h hs hgrows hrestored) hpartedrest
        hnoduprest
      rw [h.within_within hs hn₁ (hgrows₂.sound hn₁)] at hfiles₂
      have hroom := room_cons hpath hfits hne hrestored
      refine ⟨n₂, hfiles₂, hgrows.trans hgrows₂, fun q hq ↦ ?_, hok₂.trans hroom, fun hsuccess ↦ ?_⟩
      · exact (hbeside₂ q fun y hy ↦ hq y (List.mem_cons_of_mem _ hy)).trans
          (hbeside q (hq x List.mem_cons_self))
      · have hapart := (List.pairwise_cons.1 (hroom.1 (hok₂.1 hsuccess)).apart).1
        refine hrestored.cons (hrestored₂ hsuccess) fun y hy ↦ ?_
        obtain ⟨z, hz, rfl⟩ := List.mem_map.1 hy
        exact hapart z hz

end Transfer
end FirmwareLane
