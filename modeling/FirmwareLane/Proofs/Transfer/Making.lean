import FirmwareLane.Proofs.Files.Furnishing
import FirmwareLane.Proofs.Transfer.Rooted

/-!
# Making the directories on the way

Before a file is written the directories on the way to it are made, from the one that is missing
farthest up.  `Clear` says that nothing else is in the way; then all of them are made, and nothing
else is (`createAll_below`).
-/

set_option autoImplicit false
namespace FirmwareLane
namespace Transfer

open Action (perform)
open Files (Changeable Makes Passable Searchable)

/-- On the way along the names from a place there are directories that may be changed, or nothing. -/
def Ready (root : Node) (R p : Place) : Prop :=
  ∀ q, q <+: p → root.faceAt? (R ++ q) = none ∨ Changeable root (R ++ q)

/-- On the way along the names from a place there are directories that may be gone through, then
perhaps one in which something may be made, and nothing from there on. -/
structure Clear (root : Node) (R p : Place) : Prop where
  way : ∀ q, q <+: p → root.faceAt? (R ++ q) = none ∨ Searchable root (R ++ q)
  room : ∀ q name, q ++ [name] <+: p → root.faceAt? (R ++ q) ≠ none →
    root.faceAt? (R ++ (q ++ [name])) = none → Changeable root (R ++ q)

/-- One tree is the other with the missing directories made along the names from a place. -/
structure Grown (root : Node) (R p : Place) (root' : Node) : Prop where
  kept : ∀ q c, root.faceAt? q = some c → root'.faceAt? q = some c
  made : ∀ q, q <+: p → root.faceAt? (R ++ q) = none →
    root'.faceAt? (R ++ q) = some Node.emptyDirectory
  absent : ∀ q, root.faceAt? q = none → (∀ a, a <+: p → q ≠ R ++ a) → root'.faceAt? q = none

variable {root : Node} {R p : Place} {name : String}

theorem Ready.clear (h : Ready root R p) : Clear root R p where
  way q hq := (h q hq).imp_right Changeable.searchable
  room q _ hq hne _ := (h q ((List.prefix_append ..).trans hq)).resolve_left hne

theorem Clear.of_isPrefix {q : Place} (h : Clear root R p) (hq : q <+: p) : Clear root R q :=
  ⟨fun a ha ↦ h.way a (ha.trans hq), fun a name ha ↦ h.room a name (ha.trans hq)⟩

theorem faceAt?_ne_none_of_isPrefix {q : Place} (hq : q <+: p) (hp : root.at? (R ++ p) ≠ none) :
    root.faceAt? (R ++ q) ≠ none := by
  obtain ⟨rest, rfl⟩ := hq
  intro hnone
  rw [← List.append_assoc, Node.at?_append, Node.faceAt?_eq_none.1 hnone] at hp
  exact hp rfl

theorem Clear.passable (h : Clear root R p) (hp : root.at? (R ++ p) ≠ none) :
    Passable root R p :=
  fun q hq ↦ (h.way q hq).resolve_left (faceAt?_ne_none_of_isPrefix hq hp)

/-- Where the end of the way is missing, there is a first name that is. -/
theorem Clear.exists_missing (h : Clear root R p) (hR : root.at? R ≠ none)
    (hp : root.at? (R ++ p) = none) :
    ∃ above missing below, p = above ++ missing :: below ∧ Passable root R above ∧
      root.at? (R ++ above ++ [missing]) = none := by
  induction p using List.reverseRecOn with
  | nil => exact absurd (by rwa [List.append_nil] at hp) hR
  | append_singleton front last ih =>
    have hfront : Clear root R front := h.of_isPrefix (List.prefix_append ..)
    by_cases hmissing : root.at? (R ++ front) = none
    · obtain ⟨above, missing, below, rfl, hpass, hnone⟩ := ih hfront hmissing
      exact ⟨above, missing, below ++ [last], by simp, hpass, hnone⟩
    · exact ⟨front, last, [], rfl, hfront.passable hmissing, by rwa [List.append_assoc]⟩

theorem Grown.isExtension {root' : Node} (h : Grown root R p root') : root.Extends root' :=
  fun q c hc ↦ ⟨c, h.kept q c hc, rfl⟩

theorem grown_of_at? (hp : root.at? (R ++ p) ≠ none) : Grown root R p root where
  kept _ _ hc := hc
  made _ hq hnone := absurd hnone (faceAt?_ne_none_of_isPrefix hq hp)
  absent _ hnone _ := hnone

/-- One directory more at the end of the way. -/
theorem grown_put {above : Node} (habove : root.at? (R ++ p) = some above)
    (hdir : above.isDirectory = true) (hvacant : root.at? (R ++ p ++ [name]) = none) :
    Grown root R (p ++ [name]) (root.put (R ++ p ++ [name]) Node.emptyDirectory) := by
  have hleaf : Node.emptyDirectory.entries = [] := rfl
  have hface := Node.faceAt?_put habove hdir hvacant hleaf
  refine ⟨fun q c ↦ Node.faceAt?_put_of_eq_some habove hdir hvacant hleaf, fun q hq hnone ↦ ?_,
    fun q hnone hq ↦ ?_⟩
  · rcases List.prefix_concat_iff.1 hq with rfl | hq
    · rw [hface, if_pos (List.append_assoc ..).symm]
      rfl
    · exact absurd hnone (faceAt?_ne_none_of_isPrefix hq (by rw [habove]; exact Option.some_ne_none _))
  · have hne : q ≠ R ++ p ++ [name] :=
      fun heq ↦ hq (p ++ [name]) List.prefix_rfl (heq.trans (List.append_assoc ..))
    rw [hface, if_neg hne, hnone]

/-- The last directory is made after those above it. -/
theorem Grown.concat {root' root'' : Node} (h : Grown root R p root')
    (h' : Grown root' R (p ++ [name]) root'') : Grown root R (p ++ [name]) root'' := by
  refine ⟨fun q c hc ↦ h'.kept q c (h.kept q c hc), fun q hq hnone ↦ ?_, fun q hnone hq ↦ ?_⟩
  · cases hq' : root'.faceAt? (R ++ q) with
    | none => exact h'.made q hq hq'
    | some c =>
      have hfront : q <+: p := by
        by_contra hno
        refine absurd (h.absent (R ++ q) hnone fun a ha heq ↦ hno ?_) (by rw [hq']; exact nofun)
        rwa [List.append_cancel_left heq]
      exact h'.kept _ _ (h.made q hfront hnone)
  · refine h'.absent q (h.absent q hnone fun a ha ↦ ?_) hq
    exact hq a (ha.trans (List.prefix_append ..))

/-- The end of the way is missing still when the directories above it were made. -/
theorem Grown.at?_concat_eq_none {root' : Node} (h : Grown root R p root')
    (hnone : root.at? (R ++ p ++ [name]) = none) : root'.at? (R ++ p ++ [name]) = none := by
  refine Node.faceAt?_eq_none.1 (h.absent _ (Node.faceAt?_eq_none.2 hnone) ?_)
  rintro a ha heq
  have hlen := congrArg List.length heq
  have hle := ha.length_le
  simp only [List.length_append, List.length_singleton] at hlen
  omega

/-- The way is clear still when all of it but its end was made. -/
theorem Clear.of_grown {root' : Node} (h : Clear root R (p ++ [name])) (hgrown : Grown root R p root')
    (habove : root'.faceAt? (R ++ p) = some Node.emptyDirectory)
    (hnone : root'.at? (R ++ p ++ [name]) = none) : Clear root' R (p ++ [name]) := by
  rw [List.append_assoc] at hnone
  refine ⟨fun q hq ↦ ?_, fun q last hq hne hno ↦ ?_⟩
  · rcases List.prefix_concat_iff.1 hq with rfl | hq'
    · exact .inl (Node.faceAt?_eq_none.2 hnone)
    · rcases h.way q hq with hface | ⟨m, hdir, hallows⟩
      · exact .inr (Files.changeable_of_emptyDirectory (hgrown.made q hq' hface)).searchable
      · exact .inr ⟨m, hgrown.kept _ _ hdir, hallows⟩
  · -- only the last directory is missing still, in one that was made
    rcases List.prefix_concat_iff.1 hq with heq | hq'
    · obtain rfl := (List.append_inj' heq rfl).1
      exact Files.changeable_of_emptyDirectory habove
    · have hreached : root'.at? (R ++ p) ≠ none := fun hp ↦
        nomatch (Node.faceAt?_eq_none.2 hp).symm.trans habove
      exact absurd hno (faceAt?_ne_none_of_isPrefix hq' hreached)

variable {fs : Files} {path : String}

theorem withoutEnd_below {root : String} (hroot : root ≠ "") (hp : Parted (p ++ [name])) :
    Files.withoutEnd (Path.below root (relative (p ++ [name]))) =
      Path.below root (relative (p ++ [name])) :=
  Files.withoutEnd_of_getLast? (getLast?_below hroot hp)

section Making

variable {root : String} (h : Rooted fs root R) (hp : Named (p ++ [name]))
  (hsize : (Path.below root (relative (p ++ [name]))).utf8ByteSize ≤ Files.greatestPath)

include h hp hsize

/-- A directory is made where its name is missing in a directory that may be changed. -/
theorem ensured_below (hpass : Passable fs.root R p) (hchange : Changeable fs.root (R ++ p))
    (hnone : fs.root.at? (R ++ p ++ [name]) = none) :
    fs.ensured (Path.below root (relative (p ++ [name]))) =
      .ok { fs with root := fs.root.put (R ++ p ++ [name]) Node.emptyDirectory } := by
  refine Files.ensured_vacant hsize ?_ hchange
  rw [withoutEnd_below h.ne_empty hp.parted]
  exact h.find_vacant hp hsize hpass false hnone

/-- Nothing is made where the directory above is missing. -/
theorem ensured_below_missing (hclear : Clear fs.root R p) (hnone : fs.root.at? (R ++ p) = none) :
    fs.ensured (Path.below root (relative (p ++ [name]))) = .error .notFound := by
  obtain ⟨m, es, hR, -⟩ := Files.searchable_iff.1 h.searchable
  obtain ⟨above, missing, below, rfl, hpass, hmissing⟩ :=
    hclear.exists_missing (by rw [hR]; exact Option.some_ne_none _) hnone
  have hfind := fun follow ↦ h.find_missing follow hp hsize hpass hmissing
  rw [Files.ensured, Files.withDirectory, Files.isTooLong_eq_false hsize,
    withoutEnd_below h.ne_empty hp.parted, hfind, Files.isDirectory,
    Files.node, Files.present, hfind]
  rfl

/-- What is made at the end of the way. -/
theorem exists_put (hclear : Clear fs.root R (p ++ [name])) (hsound : fs.root.Sound)
    (habove : fs.root.at? (R ++ p) ≠ none) (hnone : fs.root.at? (R ++ p ++ [name]) = none) :
    ∃ tree, fs.ensured (Path.below root (relative (p ++ [name]))) = .ok { fs with root := tree } ∧
      Grown fs.root R (p ++ [name]) tree ∧ tree.Sound := by
  have hfront : Clear fs.root R p := hclear.of_isPrefix (List.prefix_append ..)
  have hchange : Changeable fs.root (R ++ p) := by
    refine hclear.room p name List.prefix_rfl (fun hno ↦ habove (Node.faceAt?_eq_none.1 hno)) ?_
    rw [← List.append_assoc]
    exact Node.faceAt?_eq_none.2 hnone
  obtain ⟨m, es, hplace, -⟩ := Files.searchable_iff.1 hchange.searchable
  have hnames : ∀ n ∈ R ++ p ++ [name], IsName n := by
    intro n hn
    rcases List.mem_append.1 hn with hn | hn
    · exact (hsound.at? hplace).1 n hn
    · exact List.mem_singleton.1 hn ▸ hp.last
  exact ⟨_, ensured_below h hp hsize (hfront.passable habove) hchange hnone,
    grown_put hplace rfl hnone, hsound.put hnames Node.sound_emptyDirectory⟩

end Making

theorem exists_fewer {levels : Nat} (h : (p ++ [name]).length ≤ levels) :
    ∃ fewer, levels = fewer + 1 ∧ p.length ≤ fewer := by
  rw [List.length_append, List.length_singleton] at h
  obtain ⟨fewer, rfl⟩ := Nat.exists_eq_add_of_le' (Nat.le_of_add_left_le h)
  exact ⟨fewer, rfl, Nat.le_of_succ_le_succ h⟩

/-- The directories on the way to a place are made from the one that is missing farthest up. -/
theorem exists_makes_below {root : String} (h : Rooted fs root R) (hp : Named p) (hne : p ≠ [])
    (hsize : (Path.below root (relative p)).utf8ByteSize ≤ Files.greatestPath)
    (hclear : Clear fs.root R p) (hsound : fs.root.Sound) {levels : Nat}
    (hlevels : p.length ≤ levels) :
    ∃ tree, Makes levels fs (Path.below root (relative p)) (.ok ()) { fs with root := tree } ∧
      Grown fs.root R p tree ∧ tree.Sound := by
  induction p using List.reverseRecOn generalizing levels with
  | nil => exact absurd rfl hne
  | append_singleton front last ih =>
    have hroot := h.ne_empty
    by_cases hend : fs.root.at? (R ++ front ++ [last]) = none
    · by_cases habove : fs.root.at? (R ++ front) = none
      · -- the directory above is missing too, and is made first
        have hfront : front ≠ [] := by
          rintro rfl
          obtain ⟨m, es, hR, -⟩ := Files.searchable_iff.1 h.searchable
          rw [List.append_nil, hR] at habove
          exact nomatch habove
        have hmissing := ensured_below_missing h hp hsize
          (hclear.of_isPrefix (List.prefix_append ..)) habove
        obtain ⟨fewer, rfl, hfewer⟩ := exists_fewer hlevels
        obtain ⟨tree, hmakes, hgrown, htree⟩ := ih hp.of_append_left hfront
          ((utf8ByteSize_below_le hroot hfront hp.parted).trans hsize)
          (hclear.of_isPrefix (List.prefix_append ..)) hfewer
        have hmade : tree.faceAt? (R ++ front) = some Node.emptyDirectory :=
          hgrown.made front List.prefix_rfl (Node.faceAt?_eq_none.2 habove)
        have hnone := hgrown.at?_concat_eq_none hend
        obtain ⟨tree', hensured, hgrown', htree'⟩ := exists_put
          (h.of_extends hgrown.isExtension) hp hsize (hclear.of_grown hgrown hmade hnone) htree
          (fun hno ↦ nomatch (Node.faceAt?_eq_none.2 hno).symm.trans hmade) hnone
        exact ⟨tree', .after (below_ne_empty hroot hp.parted) hmissing
          (parent?_below hroot hfront hp.parted) hmakes hensured, hgrown.concat hgrown', htree'⟩
      · obtain ⟨tree, hensured, hgrown, htree⟩ := exists_put h hp hsize hclear hsound habove hend
        exact ⟨tree, .there hensured, hgrown, htree⟩
    · -- all of it is there
      have hthere : fs.root.at? (R ++ (front ++ [last])) ≠ none := by rwa [← List.append_assoc]
      refine ⟨fs.root, .there ?_, grown_of_at? hthere, hsound⟩
      have hpass := hclear.passable hthere
      obtain ⟨m, es, hplace, -⟩ := Files.searchable_iff.1 (hpass _ List.prefix_rfl)
      rw [← List.append_assoc] at hplace
      exact Files.ensured_of_isDirectory h.standing (Files.isDirectory_iff.2
        ⟨_, m, es, h.find_present hp hsize hpass.of_concat true hplace rfl⟩)

/-- **The directories on the way to a place are made, and nothing else is.** -/
theorem createAll_below {root : String} (h : Rooted fs root R) (hp : Named p) (hne : p ≠ [])
    (hsize : (Path.below root (relative p)).utf8ByteSize ≤ Files.greatestPath)
    (hclear : Clear fs.root R p) (hsound : fs.root.Sound) :
    ∃ tree, perform (Files.createAll (Path.below root (relative p))) fs =
        (.ok (), { fs with root := tree }) ∧ Grown fs.root R p tree ∧ tree.Sound := by
  obtain ⟨tree, hmakes, hgrown, htree⟩ := exists_makes_below h hp hne hsize hclear hsound
    (Nat.le_succ_of_le (length_le_below h.ne_empty hp.parted))
  exact ⟨tree, hmakes.perform_eq, hgrown, htree⟩

end Transfer
end FirmwareLane
