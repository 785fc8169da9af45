import FirmwareLane.Proofs.Files.Furnishing

/-!
# A directory by itself

A walk below a directory that comes to no link stays in that directory.  So what it finds is told by
the directory alone (`reach`), wherever the directory is in the tree (`walkOn_append`).

`Grows` is what such a walk may lead to: files and directories come where nothing was, and files hold
other bytes.  No link comes and no file gets another name, so the next walk stays in the directory
too.
-/

set_option autoImplicit false
namespace FirmwareLane
namespace Files

/-! ## Walks that stay in a directory -/

/-- What is found below a place, as it is found from the root. -/
def Target.under (R : Place) : Target → Target
  | .present p n => .present (R ++ p) n
  | .vacant p => .vacant (R ++ p)

/-- No link stands on the way along the names from a directory, nor at its end. -/
def Unlinked (n : Node) (p : Place) : Prop :=
  ∀ q target, q <+: p → n.at? q ≠ some (.link target)

/-- What names lead to in a directory, as far as no link is followed. -/
def reach (n : Node) (p : Place) : Except Fault Target := walk n true 0 [] p

variable {root n : Node} {R p q : Place} {name : String}

theorem Unlinked.of_isPrefix (h : Unlinked n p) (hq : q <+: p) : Unlinked n q :=
  fun a target ha ↦ h a target (ha.trans hq)

/-- **A walk below a directory that comes to no link stays in it.** -/
theorem walkOn_append (hR : root.at? R = some n) (hp : ∀ name ∈ p, IsPart name)
    (hlink : Unlinked n (q ++ p)) (follow : Bool)
    (jump : Place → List String → Except Fault Target) :
    walkOn root follow jump (R ++ q) p = (walk n true 0 q p).map (Target.under R) := by
  induction p generalizing q with
  | nil =>
    rw [walk, walkOn, walkOn, Node.at?_append, hR, Option.bind_some]
    cases n.at? q <;> rfl
  | cons step rest ih =>
    have hstep := hp step List.mem_cons_self
    have hnext : n.at? (q ++ [step]) = (n.at? q).bind fun c ↦ c.entries.lookup step :=
      Node.at?_concat q step n
    have hlink' : Unlinked n ((q ++ [step]) ++ rest) := by
      rw [List.append_assoc]
      exact hlink
    have hrest := ih (fun name hname ↦ hp name (List.mem_cons_of_mem _ hname)) hlink'
    rw [walk] at hrest ⊢
    rw [walkOn, walkOn, Node.at?_append, hR, Option.bind_some]
    cases hplace : n.at? q with
    | none => rfl
    | some c =>
      cases c with
      | directory m es =>
        rw [hplace] at hnext
        dsimp only
        rw [if_neg hstep.notHere, if_neg hstep.notAbove, if_neg hstep.notHere, if_neg hstep.notAbove]
        by_cases hsearch : (!(Node.directory m es).allows .search) = true
        · rw [if_pos hsearch, if_pos hsearch]
          rfl
        rw [if_neg hsearch, if_neg hsearch]
        by_cases hsize : greatestName < step.utf8ByteSize
        · rw [if_pos hsize, if_pos hsize]
          rfl
        rw [if_neg hsize, if_neg hsize]
        change n.at? (q ++ [step]) = es.lookup step at hnext
        cases hentry : es.lookup step with
        | none =>
          cases rest with
          | nil =>
            rw [List.append_assoc]
            rfl
          | cons next more => rfl
        | some c =>
          cases c with
          | link target =>
            have hon : q ++ [step] <+: q ++ step :: rest :=
              (List.prefix_append_right_inj q).2 (by simp)
            exact absurd (hnext.trans hentry) (hlink _ target hon)
          | file m b i => rw [List.append_assoc]; exact hrest
          | directory m es => rw [List.append_assoc]; exact hrest
          | device d => rw [List.append_assoc]; exact hrest
      | file m b i => rfl
      | link target => rfl
      | device d => rfl

/-- Such a walk finds nothing but what stands at the end of its names. -/
theorem Leads.eq_of_unlinked {t : Target} (h : Leads n true 0 q p t)
    (hp : ∀ name ∈ p, IsPart name) (hlink : Unlinked n (q ++ p)) :
    (∃ front name, p = front ++ [name] ∧ t = .vacant (q ++ p) ∧ Searchable n (q ++ front) ∧
      IsEntryStep name ∧ n.at? (q ++ p) = none) ∨
    ∃ c, t = .present (q ++ p) c ∧ n.at? (q ++ p) = some c := by
  generalize hlinks : 0 = links at h
  induction h with
  | @present links place node h => exact .inr ⟨node, by rw [List.append_nil], by rwa [List.append_nil]⟩
  | here _ _ _ => exact absurd rfl (hp _ List.mem_cons_self).notHere
  | above _ _ _ => exact absurd rfl (hp _ List.mem_cons_self).notAbove
  | @vacant links place step h hstep hnone =>
    exact .inl ⟨[], step, rfl, rfl, by rwa [List.append_nil], hstep, hnone⟩
  | @into links place step rest t c h hstep _ _ _ ih =>
    have hlink' : Unlinked n ((place ++ [step]) ++ rest) := by
      rw [List.append_assoc]
      exact hlink
    have hmore := ih (fun name hname ↦ hp name (List.mem_cons_of_mem _ hname)) hlink' hlinks
    rw [List.append_assoc, List.singleton_append] at hmore
    rcases hmore with ⟨front, name, rfl, ht, hsearch, hname, hnone⟩ | hmore
    · rw [List.append_assoc, List.singleton_append] at hsearch
      exact .inl ⟨step :: front, name, rfl, ht, hsearch, hname, hnone⟩
    · exact .inr hmore
  | link _ _ _ hfollow => exact nomatch hfollow
  | jump _ _ _ _ _ _ _ => exact nomatch hlinks

/-- **What names lead to in a directory**: a place in it where nothing is, what stands at their end,
or nothing at all. -/
theorem reach_cases (hp : ∀ name ∈ p, IsPart name) (hlink : Unlinked n p) :
    (∃ front name, p = front ++ [name] ∧ reach n p = .ok (.vacant p) ∧ Searchable n front ∧
      IsEntryStep name ∧ n.at? p = none) ∨
    (∃ c, reach n p = .ok (.present p c) ∧ n.at? p = some c ∧ c.isLink = false) ∨
    ∃ fault, reach n p = .error fault := by
  cases h : reach n p with
  | error fault => exact .inr (.inr ⟨fault, rfl⟩)
  | ok t =>
    rcases (walk_eq_ok.1 h).eq_of_unlinked hp hlink with
      ⟨front, name, heq, rfl, hsearch, hname, hnone⟩ | ⟨c, rfl, hc⟩
    · exact .inl ⟨front, name, heq, rfl, hsearch, hname, hnone⟩
    · refine .inr (.inl ⟨c, rfl, hc, ?_⟩)
      cases c with
      | link target => exact absurd hc (hlink p target List.prefix_rfl)
      | file m b i => rfl
      | directory m es => rfl
      | device d => rfl

/-- Directories that may be gone through stand all along the names that such a walk succeeds on. -/
theorem Leads.searchable_of_unlinked {t : Target} (h : Leads n true 0 q p t)
    (hp : ∀ name ∈ p, IsPart name) {a : Place} (ha : a <+: p) (hne : a ≠ p) :
    Searchable n (q ++ a) := by
  generalize hlinks : 0 = links at h
  induction h generalizing a with
  | present _ => exact absurd (List.prefix_nil.1 ha) hne
  | here _ _ _ => exact absurd rfl (hp _ List.mem_cons_self).notHere
  | above _ _ _ => exact absurd rfl (hp _ List.mem_cons_self).notAbove
  | @vacant links place step h _ _ =>
    rcases List.prefix_cons_iff.1 ha with rfl | ⟨rest, rfl, hrest⟩
    · rwa [List.append_nil]
    · exact absurd (congrArg _ (List.prefix_nil.1 hrest)) hne
  | @into links place step rest t c h _ _ _ _ ih =>
    rcases List.prefix_cons_iff.1 ha with rfl | ⟨more, rfl, hmore⟩
    · rwa [List.append_nil]
    · have hnext := ih (fun name hname ↦ hp name (List.mem_cons_of_mem _ hname)) hmore
        (fun heq ↦ hne (heq ▸ rfl)) hlinks
      rwa [List.append_assoc] at hnext
  | link _ _ _ hfollow => exact absurd hfollow (by decide)
  | jump _ _ _ _ _ _ _ => exact absurd hlinks (Nat.succ_ne_zero _).symm

/-- All but the last of the names that are reached lead through directories. -/
theorem searchable_of_reach {front : Place} {name : String} {t : Target}
    (hp : ∀ part ∈ front ++ [name], IsPart part) (h : reach n (front ++ [name]) = .ok t) {a : Place}
    (ha : a <+: front) : Searchable n a := by
  have hne : a ≠ front ++ [name] := by
    rintro rfl
    have hlength := ha.length_le
    rw [List.length_append, List.length_singleton] at hlength
    omega
  exact (walk_eq_ok.1 h).searchable_of_unlinked hp (ha.trans (List.prefix_append ..)) hne

/-- Under a name in a directory there is at least nothing. -/
theorem reach_singleton_ne_notFound (hdir : n.isDirectory = true) (hname : IsPart name)
    (hlink : Unlinked n [name]) : reach n [name] ≠ .error .notFound := by
  cases n with
  | directory m es =>
    rw [reach, walk, walkOn]
    dsimp only [Node.at?]
    rw [if_neg hname.notHere, if_neg hname.notAbove]
    by_cases hsearch : (!(Node.directory m es).allows .search) = true
    · rw [if_pos hsearch]
      rintro ⟨⟩
    rw [if_neg hsearch]
    by_cases hsize : greatestName < name.utf8ByteSize
    · rw [if_pos hsize]
      rintro ⟨⟩
    rw [if_neg hsize]
    cases hentry : es.lookup name with
    | none => rintro ⟨⟩
    | some c =>
      have hc : (Node.directory m es).at? ([] ++ [name]) = some c := by
        rw [Node.at?_concat]
        exact hentry
      cases c with
      | link target => exact absurd hc (hlink _ target List.prefix_rfl)
      | file m b i => dsimp only; rw [walkOn, hc]; rintro ⟨⟩
      | directory m es => dsimp only; rw [walkOn, hc]; rintro ⟨⟩
      | device d => dsimp only; rw [walkOn, hc]; rintro ⟨⟩
  | file m b i => cases hdir
  | link target => cases hdir
  | device d => cases hdir

/-! ## What such walks lead to -/

/-- A node that is another with files and directories where nothing was, and with other bytes in
files. -/
structure Grows (n n' : Node) : Prop where
  isExtension : n.Extends n'
  sound : n.Sound → n'.Sound
  /-- Links, and files that may have other names, were there before. -/
  old : ∀ q c', n'.faceAt? q = some c' → c'.isLink = true ∨ c'.identity ≠ 0 →
    ∃ c, n.faceAt? q = some c ∧ c.outline = c'.outline

namespace Grows

variable {n' n'' : Node}

theorem refl (n : Node) : Grows n n := ⟨.refl n, id, fun _ c' h _ ↦ ⟨c', h, rfl⟩⟩

theorem trans (h : Grows n n') (h' : Grows n' n'') : Grows n n'' where
  isExtension := h.isExtension.trans h'.isExtension
  sound hn := h'.sound (h.sound hn)
  old q c'' hc'' hkind := by
    obtain ⟨c', hc', heq'⟩ := h'.old q c'' hc'' hkind
    rw [← Node.isLink_outline, ← Node.identity_outline, ← heq', Node.isLink_outline,
      Node.identity_outline] at hkind
    obtain ⟨c, hc, heq⟩ := h.old q c' hc' hkind
    exact ⟨c, hc, heq.trans heq'⟩

theorem isDirectory (h : Grows n n') (hdir : n.isDirectory = true) : n'.isDirectory = true := by
  cases n with
  | directory m es =>
    have hface := h.isExtension.directory (p := []) (m := m) rfl
    obtain ⟨es', rfl⟩ := Node.face_eq_directory.1 (Option.some.inj hface)
    rfl
  | file m b i => exact nomatch hdir
  | link target => exact nomatch hdir
  | device d => exact nomatch hdir

/-- No link comes. -/
theorem unlinked (h : Grows n n') (hlink : Unlinked n p) : Unlinked n' p := by
  intro q target hq hat
  obtain ⟨c, hc, heq⟩ := h.old q _ (by rw [Node.faceAt?, hat]; rfl) (.inl rfl)
  obtain ⟨d, hd, rfl⟩ := Option.map_eq_some_iff.1 hc
  cases d with
  | link target' => exact hlink q target' hq hd
  | file m b i => cases heq
  | directory m es => cases heq
  | device d => cases heq

/-- No file comes that may have another name. -/
theorem exists_file (h : Grows n n') {m i : Nat} {b : Text.Bytes} (hi : i ≠ 0)
    (hq : n'.at? q = some (.file m b i)) : ∃ b', n.at? q = some (.file m b' i) := by
  obtain ⟨c, hc, heq⟩ := h.old q _ (Node.faceAt?_eq_file.2 hq) (.inr hi)
  cases c with
  | file m' b' i' =>
    obtain ⟨rfl, -, rfl⟩ := Node.file.inj heq
    exact ⟨b', Node.faceAt?_eq_file.1 hc⟩
  | link target => exact nomatch heq
  | directory m es => exact nomatch heq
  | device d => exact nomatch heq

/-- Something without entries comes where nothing was. -/
theorem put {m : Nat} {es : List (String × Node)} {c : Node} (hp : n.at? p = some (.directory m es))
    (hname : IsName name) (hnone : n.at? (p ++ [name]) = none) (hc : c.Sound)
    (hentries : c.entries = []) (hlink : c.isLink = false) (hidentity : c.identity = 0) :
    Grows n (n.put (p ++ [name]) c) where
  isExtension q d hd := ⟨d, Node.faceAt?_put_of_eq_some hp rfl hnone hentries hd, rfl⟩
  sound hn := by
    refine hn.put (fun step hstep ↦ ?_) hc
    rcases List.mem_append.1 hstep with hstep | hstep
    · exact (hn.at? hp).1 step hstep
    · exact List.mem_singleton.1 hstep ▸ hname
  old q c' hc' hkind := by
    rw [Node.faceAt?_put hp rfl hnone hentries] at hc'
    split at hc'
    · obtain rfl := Option.some.inj hc'
      rw [Node.isLink_face, Node.identity_face, hlink, hidentity] at hkind
      exact absurd hkind (by simp)
    · exact ⟨c', hc', rfl⟩

/-- A file holds other bytes. -/
theorem alterFile {m i : Nat} {c : Text.Bytes} (hfile : n.at? (p ++ [name]) = some (.file m c i))
    (b : Text.Bytes) : Grows n (n.alterFile (p ++ [name]) (Node.withBytes b)) where
  isExtension := Node.extends_alterFile hfile b
  sound hn := hn.alterFile b
  old q c' hc' _ := by
    rw [Node.faceAt?_alterFile hfile] at hc'
    obtain ⟨d, hd, rfl⟩ := Option.map_eq_some_iff.1 hc'
    exact ⟨d, hd, (Node.outline_rewritten ..).symm⟩

end Grows

/-- Nothing is seen to differ but on the way along names, and at their end. -/
def Beside (p : Place) (n n' : Node) : Prop := ∀ q, ¬ q <+: p → n'.faceAt? q = n.faceAt? q

/-- A file at a place has no other name. -/
def IsOnly (n : Node) (p : Place) : Prop :=
  ∀ m b i, n.at? p = some (.file m b i) → i ≠ 0 →
    ∀ q m' b', n.at? q = some (.file m' b' i) → q = p

theorem IsOnly.of_grows {n' : Node} (h : IsOnly n p) (hgrows : Grows n n') : IsOnly n' p := by
  intro m b i hp hi q m' b' hq
  obtain ⟨c, hp'⟩ := hgrows.exists_file hi hp
  obtain ⟨c', hq'⟩ := hgrows.exists_file hi hq
  exact h m c i hp' hi q m' c' hq'

namespace Beside

variable {n' n'' : Node}

theorem refl (p : Place) (n : Node) : Beside p n n := fun _ _ ↦ rfl

theorem trans (h : Beside p n n') (h' : Beside p n' n'') : Beside p n n'' :=
  fun a ha ↦ (h' a ha).trans (h a ha)

theorem mono (h : Beside q n n') (hq : q <+: p) : Beside p n n' :=
  fun a ha ↦ h a fun haq ↦ ha (haq.trans hq)

theorem put {m : Nat} {es : List (String × Node)} {c : Node} (hp : n.at? p = some (.directory m es))
    (hnone : n.at? (p ++ [name]) = none) (hentries : c.entries = []) :
    Beside (p ++ [name]) n (n.put (p ++ [name]) c) := by
  intro a ha
  have hne : a ≠ p ++ [name] := fun heq ↦ ha (heq ▸ List.prefix_rfl)
  rw [Node.faceAt?_put hp rfl hnone hentries, if_neg hne]

theorem alterFile {m i : Nat} {c : Text.Bytes} (hfile : n.at? (p ++ [name]) = some (.file m c i))
    (honly : IsOnly n (p ++ [name])) (b : Text.Bytes) :
    Beside (p ++ [name]) n (n.alterFile (p ++ [name]) (Node.withBytes b)) := by
  intro a ha
  rw [Node.faceAt?_alterFile hfile]
  have hne : a ≠ p ++ [name] := fun heq ↦ ha (heq ▸ List.prefix_rfl)
  refine Node.map_rewritten_eq_self hne (fun m' c' hc ↦ ?_) b
  by_contra hi
  exact hne (honly m c i hfile hi a m' c' hc)

end Beside

/-- A directory with directories made on the way along names where nothing was, each in one that may
be changed. -/
structure Paved (p : Place) (n n' : Node) : Prop where
  beside : Beside p n n'
  kept : ∀ q c, n.faceAt? q = some c → n'.faceAt? q = some c
  made : ∀ q, n.faceAt? q = none →
    n'.faceAt? q = none ∨ n'.faceAt? q = some Node.emptyDirectory
  room : ∀ q name, n.faceAt? (q ++ [name]) = none → n'.faceAt? (q ++ [name]) ≠ none →
    Changeable n' q

namespace Paved

variable {n' n'' : Node}

theorem refl (p : Place) (n : Node) : Paved p n n :=
  ⟨.refl p n, fun _ _ h ↦ h, fun _ h ↦ .inl h, fun _ _ h h' ↦ absurd h h'⟩

theorem changeable (h : Paved p n n') (hq : Changeable n q) : Changeable n' q := by
  obtain ⟨m, hface, hallows⟩ := hq
  exact ⟨m, h.kept q _ hface, hallows⟩

/-- No directory that is made is a device. -/
theorem not_device (h : Paved p n n') (hno : ∀ d, n.at? q ≠ some (.device d)) (d : Device) :
    n'.at? q ≠ some (.device d) := by
  intro hat
  have hface := Node.faceAt?_eq_device.2 hat
  cases hold : n.faceAt? q with
  | none => rcases h.made q hold with hnone | hmade <;> cases hface.symm.trans ‹_›
  | some c =>
    rw [h.kept q c hold, ← hold] at hface
    exact hno d (Node.faceAt?_eq_device.1 hface)

theorem trans (h : Paved p n n') (h' : Paved p n' n'') : Paved p n n'' where
  beside := h.beside.trans h'.beside
  kept q c hc := h'.kept q c (h.kept q c hc)
  made q hq := by
    rcases h.made q hq with hnone | hmade
    · exact h'.made q hnone
    · exact .inr (h'.kept q _ hmade)
  room q name hq hq' := by
    by_cases hthere : n'.faceAt? (q ++ [name]) = none
    · exact h'.room q name hthere hq'
    · exact h'.changeable (h.room q name hq hthere)

theorem mono (h : Paved q n n') (hq : q <+: p) : Paved p n n' :=
  ⟨h.beside.mono hq, h.kept, h.made, h.room⟩

theorem put {m : Nat} {es : List (String × Node)} (hp : n.at? p = some (.directory m es))
    (hwrite : (Node.directory m es).allows .write = true)
    (hsearch : (Node.directory m es).allows .search = true)
    (hnone : n.at? (p ++ [name]) = none) :
    Paved (p ++ [name]) n (n.put (p ++ [name]) Node.emptyDirectory) where
  beside := .put hp hnone rfl
  kept _ _ hc := Node.faceAt?_put_of_eq_some hp rfl hnone rfl hc
  made q hq := by
    rw [Node.faceAt?_put hp rfl hnone rfl]
    split
    · exact .inr rfl
    · exact .inl hq
  room q last hq hq' := by
    rw [Node.faceAt?_put hp rfl hnone rfl] at hq'
    split at hq'
    · next heq =>
      obtain rfl := (List.append_inj' heq rfl).1
      have hface := Node.faceAt?_eq_directory.2 ⟨es, hp⟩
      exact ⟨m, Node.faceAt?_put_of_eq_some hp rfl hnone rfl hface, hwrite, hsearch⟩
    · exact absurd hq hq'

end Paved

end Files
end FirmwareLane
