import FirmwareLane.Proofs.Files.Relabelling
import FirmwareLane.Proofs.Transfer.Capturing
import FirmwareLane.Proofs.Transfer.Twins

/-!
# Capturing below two roots

Where two roots lead to directories that differ in identities only, capturing them gives the same
(`corresponds_capture`).  Again the one thing about a root that matters is how long its path is.

The walk gives two lists, of which `Agree` says how they go together: item by item, up to the first
path that is too long below one of the roots.  A walk ends at its first fault, so what the other list
goes on with is never seen.
-/

set_option autoImplicit false
namespace FirmwareLane
namespace Transfer

open Files (IsPath)

variable {fs fs' : Files} {root root' : String} {R R' place : Place} {n n' : Node}
  {table : Classification} {searchable : Bool} {s : Snapshot}

/-! ## Identities are not captured -/

theorem registeredBelow_relabel (h : n.Sound) (f : Nat → Nat) :
    registeredBelow root table place searchable (n.relabel f) =
      registeredBelow root table place searchable n := by
  induction h generalizing place searchable with
  | file m b i =>
    rw [Node.relabel, registeredBelow_file, registeredBelow_file]
    rfl
  | link target => rfl
  | device d => rfl
  | @directory m es sorted named sound ih =>
    have hclosed : closed? (fullPath root place) searchable (.directory m (Node.entriesRelabel f es)) =
        closed? (fullPath root place) searchable (.directory m es) := rfl
    rw [Node.relabel, registeredBelow_directory, registeredBelow_directory, hclosed]
    cases closed? (fullPath root place) searchable (.directory m es) with
    | some fault => rfl
    | none =>
      rw [Node.entriesRelabel_eq_map, List.flatMap_map]
      exact List.flatMap_congr fun entry he ↦ ih entry he

/-! ## Results that correspond -/

/-- Two results that differ only in the roots that faults name, unless a path is too long below one
root and not below the other. -/
def Corresponds {α : Type} (root root' : String) (x x' : Except Fault α) : Prop :=
  Alike root root' x x' ∨ ¬ SameRoom root root' ∧ (TooLong x ∨ TooLong x')

/-- What the walk gives, if it can be opened. -/
def opened : Except Fault Registered → Except Fault (String × Encoding × Text.Bytes)
  | .ok (path, e, .ok b) => .ok (path, e, b)
  | .ok (_, _, .error fault) => .error fault
  | .error fault => .error fault

/-- Two walks give the same, up to a path that is too long below one of the roots. -/
inductive Agree (root root' : String) :
    List (Except Fault Registered) → List (Except Fault Registered) → Prop
  | nil : Agree root root' [] []
  | cons {x x' : Except Fault Registered} {xs xs' : List (Except Fault Registered)}
      (h : Alike root root' (opened x) (opened x')) (hrest : Agree root root' xs xs') :
      Agree root root' (x :: xs) (x' :: xs')
  | left {x : Except Fault Registered} (hroom : ¬ SameRoom root root') (h : TooLong (opened x))
      (xs xs' : List (Except Fault Registered)) : Agree root root' (x :: xs) xs'
  | right {x' : Except Fault Registered} (hroom : ¬ SameRoom root root') (h : TooLong (opened x'))
      (xs xs' : List (Except Fault Registered)) : Agree root root' xs (x' :: xs')

namespace Agree

variable {xs xs' ys ys' : List (Except Fault Registered)}

theorem append (h : Agree root root' xs xs') (h' : Agree root root' ys ys') :
    Agree root root' (xs ++ ys) (xs' ++ ys') := by
  induction h with
  | nil => exact h'
  | cons h _ ih => exact .cons h ih
  | left hroom h => exact .left hroom h _ _
  | right hroom h => exact .right hroom h _ _

theorem flatMap {ι : Type} {es : List ι} {f g : ι → List (Except Fault Registered)}
    (h : ∀ e ∈ es, Agree root root' (f e) (g e)) :
    Agree root root' (es.flatMap f) (es.flatMap g) := by
  induction es with
  | nil => exact .nil
  | cons e rest ih =>
    exact (h e List.mem_cons_self).append (ih fun e he ↦ h e (List.mem_cons_of_mem _ he))

/-- **What is added of walks that agree corresponds.** -/
theorem addAll (h : Agree root root' xs xs') :
    Corresponds root root' (Transfer.addAll s xs) (Transfer.addAll s xs') := by
  have hcons : ∀ (s : Snapshot) (x : Except Fault Registered) (xs : List (Except Fault Registered)),
      Transfer.addAll s (x :: xs) = (opened x).bind fun (path, e, b) ↦
        (add s path e b).bind fun t ↦ Transfer.addAll t xs := by
    intro s x xs
    rcases x with fault | ⟨path, e, fault | b⟩ <;> rfl
  induction h generalizing s with
  | nil => exact .inl (.ok s)
  | @cons x x' xs xs' h _ ih =>
    rw [hcons, hcons]
    generalize opened x = y at h
    generalize opened x' = y' at h
    cases h with
    | error hmoved => exact .inl (.error hmoved)
    | ok item =>
      obtain ⟨path, e, b⟩ := item
      dsimp only [Except.bind]
      cases add s path e b with
      | error fault => exact .inl (.error (.same fault))
      | ok t => exact ih
  | left hroom h xs xs' =>
    obtain ⟨fault, heq, hlong⟩ := h
    rw [hcons, heq]
    exact .inr ⟨hroom, .inl ⟨fault, rfl, hlong⟩⟩
  | right hroom h xs xs' =>
    obtain ⟨fault, heq, hlong⟩ := h
    rw [hcons, heq]
    exact .inr ⟨hroom, .inr ⟨fault, rfl, hlong⟩⟩

end Agree

/-! ## What can be opened below two roots -/

/-- A node that can be opened under its path below one root can be so below the other, unless one of
the paths is too long. -/
theorem closed?_below_eq_or (hroot : root ≠ "") (hroot' : root' ≠ "") (hp : Parted place)
    (c : Node) :
    closed? (Path.below root (relative place)) searchable c =
        closed? (Path.below root' (relative place)) searchable c ∨
      ¬ SameRoom root root' ∧
        (closed? (Path.below root (relative place)) searchable c = some .nameTooLong ∨
          closed? (Path.below root' (relative place)) searchable c = some .nameTooLong) := by
  by_cases hroom : SameRoom root root'
  · rw [closed?, utf8ByteSize_below hroot hp, hroom, ← utf8ByteSize_below hroot' hp]
    exact .inl rfl
  by_cases hlong : Files.greatestPath < (Path.below root (relative place)).utf8ByteSize
  · exact .inr ⟨hroom, .inl (if_pos hlong)⟩
  by_cases hlong' : Files.greatestPath < (Path.below root' (relative place)).utf8ByteSize
  · exact .inr ⟨hroom, .inr (if_pos hlong')⟩
  · rw [closed?, closed?, if_neg hlong, if_neg hlong']
    exact .inl rfl

/-- The same for a directory, which a walk opens under its path below the root or that of the root. -/
theorem closed?_fullPath_eq_or (hroot : IsPath root) (hroot' : IsPath root') (hp : Parted place)
    (c : Node) :
    closed? (fullPath root place) searchable c = closed? (fullPath root' place) searchable c ∨
      ¬ SameRoom root root' ∧
        (closed? (fullPath root place) searchable c = some .nameTooLong ∨
          closed? (fullPath root' place) searchable c = some .nameTooLong) := by
  cases place with
  | nil =>
    -- the path of a root that can be followed is not too long
    left
    rw [fullPath, if_pos List.isEmpty_nil, fullPath, if_pos List.isEmpty_nil, closed?, closed?,
      if_neg (Nat.not_lt.2 hroot.size), if_neg (Nat.not_lt.2 hroot'.size)]
  | cons name rest => exact closed?_below_eq_or hroot.nonempty hroot'.nonempty hp c

theorem moved_walk (place : Place) (fault : Files.Fault) :
    Moved root root' (.walk (fullPath root place) fault) (.walk (fullPath root' place) fault) := by
  cases place with
  | nil => exact .walkRoot fault
  | cons name rest => exact .walk _ fault

/-- **Two walks through the same directory agree.** -/
theorem agree_registeredBelow (hroot : IsPath root) (hroot' : IsPath root') (h : n.Sound)
    (hp : Parted place) :
    Agree root root' (registeredBelow root table place searchable n)
      (registeredBelow root' table place searchable n) := by
  induction h generalizing place searchable with
  | file m b i =>
    rw [registeredBelow_file, registeredBelow_file]
    cases table.encoding? (relative place) with
    | none => exact .nil
    | some e =>
      have hlong : ∀ {full : String}, closed? full searchable (.file m b i) = some .nameTooLong →
          TooLong (opened (.ok (relative place, e, reached full searchable (.file m b i)))) := by
        intro full hclosed
        rw [reached, hclosed]
        exact ⟨_, rfl, rfl⟩
      rcases closed?_below_eq_or hroot.nonempty hroot'.nonempty hp (.file m b i) with
        heq | ⟨hroom, hone | hone⟩
      · refine .cons ?_ .nil
        rw [reached, reached, heq]
        cases closed? (Path.below root' (relative place)) searchable (.file m b i) with
        | none => exact .ok _
        | some fault => exact .error (.files _ fault)
      · exact .left hroom (hlong hone) _ _
      · exact .right hroom (hlong hone) _ _
  | link target => exact .nil
  | device d => exact .nil
  | @directory m es sorted named sound ih =>
    have hlong : ∀ {full : String},
        TooLong (opened (.error (.walk full .nameTooLong))) := fun {full} ↦ ⟨_, rfl, rfl⟩
    rw [registeredBelow_directory, registeredBelow_directory]
    rcases closed?_fullPath_eq_or hroot hroot' hp (.directory m es) with heq | ⟨hroom, hone | hone⟩
    · rw [heq]
      cases closed? (fullPath root' place) searchable (.directory m es) with
      | some fault => exact .cons (.error (moved_walk place fault)) .nil
      | none => exact .flatMap fun entry he ↦ ih entry he (hp.concat (named entry he).isPart)
    · rw [hone]
      exact .left hroom hlong _ _
    · rw [hone]
      exact .right hroom hlong _ _

/-! ## Capturing -/

theorem capture_of_based (h : Based fs root R n) (table : Classification) :
    capture fs root table = captureNode root table n := by
  obtain ⟨m, es, rfl⟩ : ∃ m es, n = .directory m es := by
    have hdir := h.isDirectory
    cases n with
    | directory m es => exact ⟨m, es, rfl⟩
    | file m b i => exact nomatch hdir
    | link target => exact nomatch hdir
    | device d => exact nomatch hdir
  rw [capture, directoryAt, Files.node, Files.present_eq_ok.2 h.find_eq]
  rfl

/-- **Directories that differ in identities only are captured alike.** -/
theorem corresponds_capture (h : Based fs root R n) (h' : Based fs' root' R' n')
    (hsound : n.Sound) (hn : n.Relabelled n') (table : Classification) :
    Corresponds root root' (capture fs root table) (capture fs' root' table) := by
  obtain ⟨f, -, rfl⟩ := hn
  rw [capture_of_based h, capture_of_based h', captureNode, captureNode,
    registeredBelow_relabel hsound]
  exact (agree_registeredBelow h.isPath h'.isPath hsound
    fun _ hname ↦ absurd hname List.not_mem_nil).addAll

end Transfer
end FirmwareLane
