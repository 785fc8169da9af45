import FirmwareLane.Proofs.Files.Growing
import FirmwareLane.Proofs.Transfer.Fresh

/-!
# Room for files in a directory

`Fits` says of a place in a directory that a file can be written there: the directories on the way can
be gone through, or made, and nothing stands there but a file that may be written.  `Restored` says
what a directory is once files were written into it.

## What is here

* `Fits.of_paved`: making directories on the way to a place makes no room there.
* `Restored.fits_iff`: a file leaves room for those, and only those, that it is apart from.
* `Restored.cons`: one file after another.
* `Restored.eq_of_mem_iff`: the order does not matter.
-/

set_option autoImplicit false
namespace FirmwareLane
namespace Transfer

open Files (Changeable Paved Searchable)
open Text (Bytes)

variable {name : String} {R p q : Place} {n n' n'' tree : Node} {m i : Nat}
  {b : Bytes}

/-! ## Room for a file -/

/-- There is room for a file at a place: the directories on the way to it can be gone through, as far
as they are there, the others can be made, and so can the file, unless it is there and may be
written. -/
structure Fits (n : Node) (p : Place) : Prop where
  named : Named p
  way : ∀ q, q <+: p → q ≠ p → n.faceAt? q = none ∨ Searchable n q
  room : ∀ q name, q ++ [name] <+: p → n.faceAt? q ≠ none → n.faceAt? (q ++ [name]) = none →
    Changeable n q
  file : ∀ c, n.faceAt? p = some c → c.isFile = true ∧ c.allows .write = true

theorem ne_of_concat_isPrefix (h : q ++ [name] <+: p) : q ≠ p := by
  rintro rfl
  have hlen := h.length_le
  rw [List.length_append, List.length_singleton] at hlen
  omega

theorem searchable_append (hR : tree.at? R = some n) :
    Searchable tree (R ++ q) ↔ Searchable n q := by
  rw [Searchable, Searchable, Node.faceAt?_append hR]

theorem changeable_append (hR : tree.at? R = some n) :
    Changeable tree (R ++ q) ↔ Changeable n q := by
  rw [Changeable, Changeable, Node.faceAt?_append hR]

theorem searchable_congr (h : n'.faceAt? q = n.faceAt? q) : Searchable n' q ↔ Searchable n q := by
  rw [Searchable, Searchable, h]

theorem changeable_congr (h : n'.faceAt? q = n.faceAt? q) : Changeable n' q ↔ Changeable n q := by
  rw [Changeable, Changeable, h]

/-- There is room for a new file in a directory that may be changed. -/
theorem Fits.of_absent (hnamed : Named (p ++ [name])) (hway : ∀ q, q <+: p → Searchable n q)
    (hroom : Changeable n p) (hnone : n.faceAt? (p ++ [name]) = none) : Fits n (p ++ [name]) where
  named := hnamed
  way q hq hne := .inr (hway q ((List.prefix_concat_iff.1 hq).resolve_left hne))
  room q last hq _ hmissing := by
    rcases List.prefix_concat_iff.1 hq with heq | hfront
    · exact (List.append_inj' heq rfl).1 ▸ hroom
    · obtain ⟨m, hface, -⟩ := hway _ hfront
      cases hmissing.symm.trans hface
  file c hc := by cases hnone.symm.trans hc

/-- There is room for a file that may be written. -/
theorem Fits.of_present (hnamed : Named (p ++ [name])) (hway : ∀ q, q <+: p → Searchable n q)
    (hfile : n.at? (p ++ [name]) = some (.file m b i))
    (hwrite : (Node.file m b i).allows .write = true) : Fits n (p ++ [name]) where
  named := hnamed
  way q hq hne := .inr (hway q ((List.prefix_concat_iff.1 hq).resolve_left hne))
  room q last hq _ hmissing := by
    rcases List.prefix_concat_iff.1 hq with heq | hfront
    · rw [heq, Node.faceAt?_eq_file.2 hfile] at hmissing
      cases hmissing
    · obtain ⟨m, hface, -⟩ := hway _ hfront
      cases hmissing.symm.trans hface
  file c hc := by
    obtain rfl := Option.some.inj ((Node.faceAt?_eq_file.2 hfile).symm.trans hc)
    exact ⟨rfl, hwrite⟩

/-- A file does not fit where a directory is. -/
theorem Fits.faceAt?_ne_directory (h : Fits n p) (m : Nat) :
    n.faceAt? p ≠ some (.directory m []) := by
  intro hface
  have hfile := (h.file _ hface).1
  cases hfile

theorem Fits.ne_nil (h : Fits n p) (hdir : n.isDirectory = true) : p ≠ [] := by
  rintro rfl
  cases n with
  | directory m es => exact h.faceAt?_ne_directory m rfl
  | file m b i => cases hdir
  | link target => cases hdir
  | device d => cases hdir

/-- The way to a file that fits is clear. -/
theorem Fits.clear (h : Fits n (p ++ [name])) (hR : tree.at? R = some n) : Clear tree R p where
  way q hq := by
    rw [Node.faceAt?_append hR, searchable_append hR]
    have hconcat : q <+: p ++ [name] := hq.trans (List.prefix_append ..)
    refine h.way q hconcat ?_
    rintro rfl
    have hlen := hq.length_le
    rw [List.length_append, List.length_singleton] at hlen
    omega
  room q last hq := by
    rw [Node.faceAt?_append hR, Node.faceAt?_append hR, changeable_append hR]
    exact h.room q last (hq.trans (List.prefix_append ..))

/-- **Making directories on the way to a place makes no room there.** -/
theorem Fits.of_paved (h : Fits n' p) (hpaved : Paved p n n') : Fits n p := by
  have hkept : ∀ {q : Place}, n.faceAt? q ≠ none → n'.faceAt? q = n.faceAt? q := by
    intro q hq
    obtain ⟨c, hc⟩ := Option.ne_none_iff_exists'.1 hq
    rw [hc, hpaved.kept q c hc]
  refine ⟨h.named, fun q hq hne ↦ ?_, fun q name hq hsome hnone ↦ ?_, fun c hc ↦ ?_⟩
  · by_cases hnone : n.faceAt? q = none
    · exact .inl hnone
    · have hway := (h.way q hq hne).resolve_left (by rwa [hkept hnone])
      exact .inr ((searchable_congr (hkept hnone)).1 hway)
  · rw [← changeable_congr (hkept hsome)]
    by_cases hmade : n'.faceAt? (q ++ [name]) = none
    · exact h.room q name hq (by rwa [hkept hsome]) hmade
    · exact hpaved.room q name hnone hmade
  · exact h.file c (hpaved.kept p c hc)

/-! ## What becomes of a directory -/

/-- What stands at a place when bytes were written there: a file keeps its permissions. -/
def overwritten (b : Bytes) : Option Node → Node
  | some (.file m _ i) => .file m b i
  | _ => newFile b

/-- One directory is the other with files restored into it: they hold their bytes, the directories on
the way to them were made where they were missing, and everything else stands as it stood. -/
structure Restored (files : List (Place × Bytes)) (n n' : Node) : Prop where
  file : ∀ x ∈ files, n'.faceAt? x.1 = some (overwritten x.2 (n.faceAt? x.1))
  made : ∀ q, n.faceAt? q = none → (∃ x ∈ files, q <+: x.1 ∧ q ≠ x.1) →
    n'.faceAt? q = some Node.emptyDirectory
  kept : ∀ q, (∀ x ∈ files, q ≠ x.1) → n.faceAt? q ≠ none ∨ (∀ x ∈ files, ¬ q <+: x.1) →
    n'.faceAt? q = n.faceAt? q

theorem overwritten_eq_file (b : Bytes) (c : Option Node) :
    ∃ m i, overwritten b c = .file m b i := by
  rcases c with _ | _ | _ | _ | _
  · exact ⟨_, _, rfl⟩
  · exact ⟨_, _, rfl⟩
  · exact ⟨_, _, rfl⟩
  · exact ⟨_, _, rfl⟩
  · exact ⟨_, _, rfl⟩

namespace Restored

variable {files files' : List (Place × Bytes)}

theorem nil (n : Node) : Restored [] n n :=
  ⟨fun _ h ↦ absurd h List.not_mem_nil, fun _ _ ⟨_, h, _⟩ ↦ absurd h List.not_mem_nil,
    fun _ _ _ ↦ rfl⟩

/-- **In whatever order files are restored, the same directory comes of it.** -/
theorem eq_of_mem_iff (h : Restored files n n') (h' : Restored files' n n'')
    (hmem : ∀ x, x ∈ files ↔ x ∈ files') (hn' : n'.Sound) (hn'' : n''.Sound) : n' = n'' := by
  refine hn'.ext hn'' fun q ↦ ?_
  by_cases hfile : ∃ x ∈ files, q = x.1
  · obtain ⟨x, hx, rfl⟩ := hfile
    rw [h.file x hx, h'.file x ((hmem x).1 hx)]
  · have hne : ∀ x ∈ files, q ≠ x.1 := fun x hx heq ↦ hfile ⟨x, hx, heq⟩
    have hne' : ∀ x ∈ files', q ≠ x.1 := fun x hx ↦ hne x ((hmem x).2 hx)
    by_cases hold : n.faceAt? q ≠ none ∨ ∀ x ∈ files, ¬ q <+: x.1
    · have hold' : n.faceAt? q ≠ none ∨ ∀ x ∈ files', ¬ q <+: x.1 :=
        hold.imp_right fun hno x hx ↦ hno x ((hmem x).2 hx)
      rw [h.kept q hne hold, h'.kept q hne' hold']
    · push Not at hold
      obtain ⟨hnone, x, hx, hq⟩ := hold
      rw [h.made q hnone ⟨x, hx, hq, hne x hx⟩, h'.made q hnone ⟨x, (hmem x).1 hx, hq, hne x hx⟩]

/-- Nothing becomes a device. -/
theorem not_device (h : Restored files n n') (hno : ∀ d, n.at? q ≠ some (.device d)) (d : Device) :
    n'.at? q ≠ some (.device d) := by
  intro hat
  have hface := Node.faceAt?_eq_device.2 hat
  by_cases hfile : ∃ x ∈ files, q = x.1
  · obtain ⟨x, hx, rfl⟩ := hfile
    obtain ⟨m, i, heq⟩ := overwritten_eq_file x.2 (n.faceAt? x.1)
    rw [h.file x hx, heq] at hface
    cases hface
  · have hne : ∀ x ∈ files, q ≠ x.1 := fun x hx heq ↦ hfile ⟨x, hx, heq⟩
    by_cases hold : n.faceAt? q ≠ none ∨ ∀ x ∈ files, ¬ q <+: x.1
    · rw [h.kept q hne hold] at hface
      exact hno d (Node.faceAt?_eq_device.1 hface)
    · push Not at hold
      obtain ⟨hnone, x, hx, hq⟩ := hold
      rw [h.made q hnone ⟨x, hx, hq, hne x hx⟩] at hface
      cases hface

/-! ## One file after another -/

section Singleton

variable (h : Restored [(p, b)] n n')

include h

theorem file_self : n'.faceAt? p = some (overwritten b (n.faceAt? p)) :=
  h.file _ (List.mem_singleton_self _)

theorem made_of_isPrefix (hnone : n.faceAt? q = none) (hq : q <+: p) (hne : q ≠ p) :
    n'.faceAt? q = some Node.emptyDirectory :=
  h.made q hnone ⟨_, List.mem_singleton_self _, hq, hne⟩

theorem kept_of_ne_none (hne : q ≠ p) (hsome : n.faceAt? q ≠ none) :
    n'.faceAt? q = n.faceAt? q := by
  refine h.kept q (fun x hx ↦ ?_) (.inl hsome)
  rw [List.mem_singleton.1 hx]
  exact hne

theorem kept_beside (hq : ¬ q <+: p) : n'.faceAt? q = n.faceAt? q := by
  refine h.kept q (fun x hx ↦ ?_) (.inr fun x hx ↦ ?_)
  · rw [List.mem_singleton.1 hx]
    exact fun heq ↦ hq (heq ▸ List.prefix_rfl)
  · rw [List.mem_singleton.1 hx]
    exact hq

/-- Where a file is restored no directory is. -/
theorem not_searchable : ¬ Searchable n' p := by
  rintro ⟨m, hface, -⟩
  obtain ⟨k, i, heq⟩ := overwritten_eq_file b (n.faceAt? p)
  rw [h.file_self, heq] at hface
  cases hface

theorem faceAt?_ne_none : n'.faceAt? p ≠ none := by
  rw [h.file_self]
  exact Option.some_ne_none _

/-- A file that still fits is apart from one that was restored. -/
theorem apart_of_fits (hp : Fits n p) (hq : Fits n' q) (hne : p ≠ q) : Apart p q := by
  refine ⟨fun hpq ↦ ?_, fun hqp ↦ ?_⟩
  · exact h.not_searchable ((hq.way p hpq hne).resolve_left h.faceAt?_ne_none)
  · by_cases hnone : n.faceAt? q = none
    · exact hq.faceAt?_ne_directory _ (h.made_of_isPrefix hnone hqp hne.symm)
    · obtain ⟨m, hface, -⟩ := (hp.way q hqp hne.symm).resolve_left hnone
      exact hq.faceAt?_ne_directory m ((h.kept_of_ne_none hne.symm hnone).trans hface)

/-- A file fitted already if it fits after another one was restored. -/
theorem fits_of_fits (hp : Fits n p) (hq : Fits n' q) (hapart : Apart p q) : Fits n q := by
  have hway : ∀ {a : Place}, a <+: q → a ≠ p := fun ha heq ↦ hapart.1 (heq ▸ ha)
  refine ⟨hq.named, fun a ha hne ↦ ?_, fun a name ha hsome hnone ↦ ?_, fun c hc ↦ ?_⟩
  · by_cases hnone : n.faceAt? a = none
    · exact .inl hnone
    · have hkept := h.kept_of_ne_none (hway ha) hnone
      exact .inr ((searchable_congr hkept).1 ((hq.way a ha hne).resolve_left (hkept ▸ hnone)))
  · by_cases hpath : a ++ [name] <+: p
    · exact hp.room a name hpath hsome hnone
    · have hkept := h.kept_of_ne_none (hway ((List.prefix_append ..).trans ha)) hsome
      have hmissing := (h.kept_beside hpath).trans hnone
      exact (changeable_congr hkept).1 (hq.room a name ha (hkept ▸ hsome) hmissing)
  · have hkept := h.kept_of_ne_none (hway List.prefix_rfl) (hc ▸ Option.some_ne_none c)
    exact hq.file c (hkept.trans hc)

/-- A file fits still after one was restored that it is apart from. -/
theorem fits_of_apart (hq : Fits n q) (hapart : Apart p q) : Fits n' q := by
  have hway : ∀ {a : Place}, a <+: q → a ≠ p := fun ha heq ↦ hapart.1 (heq ▸ ha)
  refine ⟨hq.named, fun a ha hne ↦ ?_, fun a name ha hsome hnone ↦ ?_, fun c hc ↦ ?_⟩
  · by_cases hnone : n.faceAt? a = none
    · by_cases hpath : a <+: p
      · have hmade := h.made_of_isPrefix hnone hpath (hway ha)
        exact .inr (Files.changeable_of_emptyDirectory hmade).searchable
      · exact .inl ((h.kept_beside hpath).trans hnone)
    · have hkept := h.kept_of_ne_none (hway ha) hnone
      exact .inr ((searchable_congr hkept).2 ((hq.way a ha hne).resolve_left hnone))
  · have hha := hway ((List.prefix_append ..).trans ha)
    have hmissing : n.faceAt? (a ++ [name]) = none := by
      by_contra hthere
      exact hthere ((h.kept_of_ne_none (hway ha) hthere).symm.trans hnone)
    by_cases hold : n.faceAt? a = none
    · have hpath : a <+: p := by
        by_contra hpath
        exact hsome ((h.kept_beside hpath).trans hold)
      exact Files.changeable_of_emptyDirectory (h.made_of_isPrefix hold hpath hha)
    · exact (changeable_congr (h.kept_of_ne_none hha hold)).2 (hq.room a name ha hold hmissing)
  · by_cases hnone : n.faceAt? q = none
    · have hmissing := (h.kept_beside hapart.2).trans hnone
      cases hc.symm.trans hmissing
    · exact hq.file c ((h.kept_of_ne_none (hway List.prefix_rfl) hnone).symm.trans hc)

/-- **Restoring a file leaves room for those, and only those, that it is apart from.** -/
theorem fits_iff (hp : Fits n p) (hne : p ≠ q) : Fits n' q ↔ Fits n q ∧ Apart p q := by
  constructor
  · intro hq
    have hapart := h.apart_of_fits hp hq hne
    exact ⟨h.fits_of_fits hp hq hapart, hapart⟩
  · rintro ⟨hq, hapart⟩
    exact h.fits_of_apart hq hapart

/-- **One file, and then others that it is apart from.** -/
theorem cons (hrest : Restored files n' n'') (hapart : ∀ x ∈ files, Apart p x.1) :
    Restored ((p, b) :: files) n n'' where
  file x hx := by
    rcases List.mem_cons.1 hx with rfl | hx
    · refine (hrest.kept p (fun y hy heq ↦ ?_) (.inl h.faceAt?_ne_none)).trans h.file_self
      exact (hapart y hy).1 (heq ▸ List.prefix_rfl)
    · rw [hrest.file x hx, h.kept_beside (hapart x hx).2]
  made q hnone hway := by
    by_cases hpath : q <+: p ∧ q ≠ p
    · have hmade := h.made_of_isPrefix hnone hpath.1 hpath.2
      refine (hrest.kept q (fun y hy heq ↦ ?_) (.inl (hmade ▸ Option.some_ne_none _))).trans hmade
      exact (hapart y hy).2 (heq ▸ hpath.1)
    · obtain ⟨x, hx, hq, hne⟩ := hway
      rcases List.mem_cons.1 hx with rfl | hx
      · exact absurd ⟨hq, hne⟩ hpath
      · have hbeside : ¬ q <+: p := by
          intro hqp
          have hself : q = p := by_contra fun hne ↦ hpath ⟨hqp, hne⟩
          exact (hapart x hx).1 (hself ▸ hq)
        exact hrest.made q ((h.kept_beside hbeside).trans hnone) ⟨x, hx, hq, hne⟩
  kept q hne hold := by
    obtain ⟨hnep, hnerest⟩ := List.forall_mem_cons.1 hne
    have hfirst : n'.faceAt? q = n.faceAt? q :=
      hold.elim (h.kept_of_ne_none hnep) fun hno ↦ h.kept_beside (hno _ List.mem_cons_self)
    refine (hrest.kept q hnerest ?_).trans hfirst
    rw [hfirst]
    exact hold.imp_right fun hno x hx ↦ hno x (List.mem_cons_of_mem _ hx)

end Singleton

end Restored

end Transfer
end FirmwareLane
