import FirmwareLane.Proofs.Files.Walk
import FirmwareLane.Proofs.Transfer.Places
import FirmwareLane.Transfer.Basic

/-!
# What a capture finds

A capture of a directory goes well when the walk can open everything that it has to open, and the
files that it finds can be recorded.  `Opens` says the first, place by place, and `found` lists the
files in the order of the walk; `captureNode_eq_ok` says that the snapshot is then that of the found
files, and that nothing else goes well.

Neither depends on more than what stands in the tree: `mem_found` and `sorted_found` tell the found
files by their places, and `Opens.of_outline` carries the first condition over to a tree with other
bytes in its files.
-/

set_option autoImplicit false
namespace FirmwareLane
namespace Transfer

open Text (Bytes)

/-! ## The files that are found -/

/-- A registered file that a walk comes to. -/
structure Found where
  place : Place
  encoding : Encoding
  mode : Nat
  bytes : Bytes
  identity : Nat

/-- The node at a place as a registered file, if it is one. -/
def found? (table : Classification) (p : Place) : Node → Option Found
  | .file m b i => (table.encoding? (relative p)).map fun e ↦ ⟨p, e, m, b, i⟩
  | _ => none

/-- The registered files of a node at a place, in the order of the walk. -/
def foundBelow (table : Classification) (place : Place) (n : Node) : List Found :=
  n.visits.filterMap fun (q, c) ↦ found? table (place ++ q) c

/-- The registered files below a node, in the order of the walk. -/
def found (table : Classification) (n : Node) : List Found := foundBelow table [] n

/-- What the walk gives for a found file that can be opened. -/
def Found.item (f : Found) : Except Fault Registered :=
  .ok (relative f.place, f.encoding, .ok f.bytes)

variable {root : String} {table : Classification} {place : Place} {searchable : Bool} {n : Node}

theorem found?_eq_some {p : Place} {c : Node} {f : Found} :
    found? table p c = some f ↔
      c = .file f.mode f.bytes f.identity ∧ f.place = p ∧
        table.encoding? (relative p) = some f.encoding := by
  cases c with
  | file m b i =>
    simp only [found?, Option.map_eq_some_iff, Node.file.injEq]
    constructor
    · rintro ⟨e, he, rfl⟩
      exact ⟨⟨rfl, rfl, rfl⟩, rfl, he⟩
    · rintro ⟨⟨rfl, rfl, rfl⟩, rfl, he⟩
      exact ⟨f.encoding, he, rfl⟩
  | directory m es => simp [found?]
  | link target => simp [found?]
  | device d => simp [found?]

theorem foundBelow_of_not_directory (h : n.isDirectory = false) :
    foundBelow table place n = (found? table place n).toList := by
  have hself : found? table (place ++ []) n = found? table place n := by rw [List.append_nil]
  rw [foundBelow, Node.visits_of_not_directory h, ← hself]
  cases hfound : found? table (place ++ []) n with
  | none => exact List.filterMap_cons_none hfound
  | some f => exact List.filterMap_cons_some hfound

theorem foundBelow_directory (m : Nat) (es : List (String × Node)) :
    foundBelow table place (.directory m es) =
      es.flatMap fun entry ↦ foundBelow table (place ++ [entry.1]) entry.2 := by
  rw [foundBelow, Node.visits_directory, List.filterMap_cons_none rfl, List.filterMap_flatMap]
  refine congrArg (List.flatMap · es) (funext fun entry ↦ ?_)
  rw [foundBelow, List.filterMap_map]
  refine congrArg (List.filterMap · entry.2.visits) (funext fun (q, c) ↦ ?_)
  simp only [Function.comp_apply, List.append_assoc, List.singleton_append]

/-- **A walk finds the registered files, at their places.** -/
theorem mem_found (h : n.Sound) {f : Found} :
    f ∈ found table n ↔ n.at? f.place = some (.file f.mode f.bytes f.identity) ∧
      table.encoding? (relative f.place) = some f.encoding := by
  rw [found, foundBelow, List.mem_filterMap]
  constructor
  · rintro ⟨⟨q, c⟩, hvisit, hfound⟩
    obtain ⟨rfl, hplace, hencoding⟩ := found?_eq_some.1 hfound
    rw [List.nil_append] at hplace hencoding
    subst hplace
    exact ⟨(Node.mem_visits h).1 hvisit, hencoding⟩
  · rintro ⟨hat, hencoding⟩
    exact ⟨(f.place, _), (Node.mem_visits h).2 hat, found?_eq_some.2 ⟨rfl, rfl, hencoding⟩⟩

/-- **A walk finds files in the order of their places.** -/
theorem sorted_found (h : n.Sound) : (found table n).Pairwise fun f g ↦ f.place < g.place := by
  rw [found, foundBelow, List.pairwise_filterMap]
  refine (Node.sorted_visits h).imp ?_
  rintro ⟨p, c⟩ ⟨q, d⟩ hlt f hf g hg
  rwa [(found?_eq_some.1 hf).2.1, (found?_eq_some.1 hg).2.1]

/-! ## What the walk has to open -/

/-- The path of a place below a root; the root has its own. -/
def fullPath (root : String) (p : Place) : String :=
  if p.isEmpty then root else Path.below root (relative p)

/-- Why the walk cannot open a node that it comes to and has to open, if it cannot. -/
def blocked? (root : String) (table : Classification) (p : Place) (searchable : Bool) :
    Node → Option Files.Fault
  | .directory m es => closed? (fullPath root p) searchable (.directory m es)
  | .file m b i =>
    if (table.encoding? (relative p)).isSome then
      closed? (Path.below root (relative p)) searchable (.file m b i)
    else none
  | _ => none

/-- Whether all directories on the way to a place may be gone through. -/
def searchableTo : Place → Node → Bool
  | [], _ => true
  | name :: rest, n =>
    n.allows .search &&
      match n.entries.lookup name with
      | some c => searchableTo rest c
      | none => true

/-- The walk can open everything that it has to open. -/
def Opens (root : String) (table : Classification) (place : Place) (searchable : Bool) (n : Node) :
    Prop :=
  ∀ q c, n.at? q = some c →
    blocked? root table (place ++ q) (searchable && searchableTo q n) c = none

/-- What the walk gives are files that could be opened. -/
def Passes (items : List (Except Fault Registered)) : Prop :=
  ∀ x ∈ items, ∃ path e b, x = .ok (path, e, .ok b)

theorem registeredEntries_eq_flatMap (es : List (String × Node)) :
    registeredEntries root table place searchable es =
      es.flatMap fun entry ↦ registeredBelow root table (place ++ [entry.1]) searchable entry.2 := by
  induction es with
  | nil => rw [registeredEntries]; rfl
  | cons entry rest ih => rw [registeredEntries, ih]; rfl

theorem registeredBelow_file (m : Nat) (b : Bytes) (i : Nat) :
    registeredBelow root table place searchable (.file m b i) =
      match table.encoding? (relative place) with
      | some e => [.ok (relative place, e,
          reached (Path.below root (relative place)) searchable (.file m b i))]
      | none => [] := by
  unfold registeredBelow
  rfl

theorem registeredBelow_directory (m : Nat) (es : List (String × Node)) :
    registeredBelow root table place searchable (.directory m es) =
      match closed? (fullPath root place) searchable (.directory m es) with
      | some fault => [.error (.walk (fullPath root place) fault)]
      | none => es.flatMap fun entry ↦ registeredBelow root table (place ++ [entry.1])
          (searchable && (Node.directory m es).allows .search) entry.2 := by
  rw [registeredBelow, registeredEntries_eq_flatMap]
  rfl

theorem registeredBelow_eq_nil (hdir : n.isDirectory = false) (hfile : n.isFile = false) :
    registeredBelow root table place searchable n = [] := by
  cases n with
  | file m b i => exact nomatch hfile
  | directory m es => exact nomatch hdir
  | link target => rw [registeredBelow] <;> exact fun _ _ ↦ by simp
  | device d => rw [registeredBelow] <;> exact fun _ _ ↦ by simp

theorem opens_of_not_directory (hn : n.isDirectory = false) :
    Opens root table place searchable n ↔ blocked? root table place searchable n = none := by
  constructor
  · intro h
    have := h [] n rfl
    rwa [List.append_nil, searchableTo, Bool.and_true] at this
  · intro h q c hc
    cases q with
    | nil =>
      obtain rfl : n = c := Option.some.inj hc
      rwa [List.append_nil, searchableTo, Bool.and_true]
    | cons name rest =>
      rw [Node.at?, Option.bind_eq_some_iff] at hc
      obtain ⟨child, hchild, -⟩ := hc
      obtain ⟨m, es, rfl⟩ := Node.exists_directory_of_lookup hchild
      cases hn

theorem opens_directory {m : Nat} {es : List (String × Node)} (hsorted : Keyed.Sorted es) :
    Opens root table place searchable (.directory m es) ↔
      closed? (fullPath root place) searchable (.directory m es) = none ∧
      ∀ entry ∈ es, Opens root table (place ++ [entry.1])
        (searchable && (Node.directory m es).allows .search) entry.2 := by
  constructor
  · intro h
    refine ⟨?_, fun entry hentry q c hc ↦ ?_⟩
    · have := h [] _ rfl
      rwa [List.append_nil, searchableTo, Bool.and_true] at this
    · have hlookup : es.lookup entry.1 = some entry.2 := hsorted.lookup_iff.2 hentry
      have := h (entry.1 :: q) c (by rw [Node.at?, Node.entries, hlookup]; exact hc)
      rw [searchableTo, Node.entries, hlookup, ← Bool.and_assoc] at this
      rwa [List.append_assoc]
  · rintro ⟨hself, hbelow⟩ q c hc
    cases q with
    | nil =>
      obtain rfl : Node.directory m es = c := Option.some.inj hc
      rwa [List.append_nil, searchableTo, Bool.and_true]
    | cons name rest =>
      rw [Node.at?, Option.bind_eq_some_iff] at hc
      obtain ⟨child, hchild, hc⟩ := hc
      have hlookup : es.lookup name = some child := hchild
      have := hbelow (name, child) (hsorted.lookup_iff.1 hlookup) rest c hc
      rw [searchableTo, Node.entries, hlookup, ← Bool.and_assoc]
      rwa [List.append_assoc] at this

/-- **The walk gives files that could be opened exactly if it can open what it has to.** -/
theorem passes_registeredBelow (h : n.Sound) :
    Passes (registeredBelow root table place searchable n) ↔
      Opens root table place searchable n := by
  induction h generalizing place searchable with
  | file m b i =>
    rw [opens_of_not_directory rfl, registeredBelow_file, blocked?]
    cases table.encoding? (relative place) with
    | none => exact iff_of_true (fun _ h ↦ absurd h List.not_mem_nil) rfl
    | some e =>
      rw [Option.isSome_some, if_pos rfl, Passes]
      simp only [List.mem_singleton, forall_eq, reached]
      cases closed? (Path.below root (relative place)) searchable (.file m b i) with
      | none => exact iff_of_true ⟨_, _, _, rfl⟩ rfl
      | some fault => simp
  | link target =>
    rw [opens_of_not_directory rfl, registeredBelow_eq_nil rfl rfl]
    exact iff_of_true (fun _ h ↦ absurd h List.not_mem_nil) rfl
  | device d =>
    rw [opens_of_not_directory rfl, registeredBelow_eq_nil rfl rfl]
    exact iff_of_true (fun _ h ↦ absurd h List.not_mem_nil) rfl
  | @directory m es sorted named sound ih =>
    rw [opens_directory sorted, registeredBelow_directory]
    cases closed? (fullPath root place) searchable (.directory m es) with
    | some fault => simp [Passes]
    | none =>
      simp only [true_and, Passes, List.forall_mem_flatMap]
      exact forall₂_congr fun entry hentry ↦ ih entry hentry

mutual

/-- What the walk gives, if it could be opened, are the files that it finds. -/
theorem registeredBelow_of_passes {place : Place} {searchable : Bool} : ∀ n : Node,
    Passes (registeredBelow root table place searchable n) →
      registeredBelow root table place searchable n = (foundBelow table place n).map Found.item
  | .directory m es => by
    intro h
    rw [registeredBelow_directory] at h ⊢
    split at h
    · obtain ⟨_, _, _, heq⟩ := h _ List.mem_cons_self
      exact nomatch heq
    · rw [foundBelow_directory, List.map_flatMap]
      exact flatMap_registeredBelow_of_passes es h
  | .file m b i => by
    intro h
    rw [registeredBelow_file] at h ⊢
    rw [foundBelow_of_not_directory rfl, found?]
    cases he : table.encoding? (relative place) with
    | none => rfl
    | some e =>
      rw [he] at h
      obtain ⟨_, _, _, heq⟩ := h _ List.mem_cons_self
      simp only [Except.ok.injEq, Prod.mk.injEq, reached] at heq ⊢
      split at heq
      · exact nomatch heq.2.2
      · rfl
  | .link target => fun _ ↦ by
    rw [foundBelow_of_not_directory rfl, registeredBelow_eq_nil rfl rfl]
    rfl
  | .device d => fun _ ↦ by
    rw [foundBelow_of_not_directory rfl, registeredBelow_eq_nil rfl rfl]
    rfl

theorem flatMap_registeredBelow_of_passes {place : Place} {searchable : Bool} :
    ∀ es : List (String × Node),
      Passes (es.flatMap fun entry ↦
        registeredBelow root table (place ++ [entry.1]) searchable entry.2) →
      (es.flatMap fun entry ↦
          registeredBelow root table (place ++ [entry.1]) searchable entry.2) =
        es.flatMap fun entry ↦ (foundBelow table (place ++ [entry.1]) entry.2).map Found.item
  | [] => fun _ ↦ rfl
  | (name, n) :: rest => by
    intro h
    rw [List.flatMap_cons, List.flatMap_cons] at *
    have hfirst := fun x hx ↦ h x (List.mem_append_left _ hx)
    have hrest := fun x hx ↦ h x (List.mem_append_right _ hx)
    exact congrArg₂ (· ++ ·) (registeredBelow_of_passes n hfirst)
      (flatMap_registeredBelow_of_passes rest hrest)

end

/-- The same where the walk can open everything that it has to. -/
theorem registeredBelow_of_opens (h : n.Sound) (hopens : Opens root table place searchable n) :
    registeredBelow root table place searchable n = (foundBelow table place n).map Found.item :=
  registeredBelow_of_passes n ((passes_registeredBelow h).2 hopens)

/-! ## What can be opened is seen from outside -/

theorem mode_outline (n : Node) : n.outline.mode = n.mode := by cases n <;> rfl

theorem allows_of_outline {c c' : Node} (h : c'.outline = c.outline) (p : Node.Permission) :
    c'.allows p = c.allows p := by
  have hmode : c'.mode = c.mode := by rw [← mode_outline, h, mode_outline]
  simp only [Node.allows, hmode]

theorem closed?_of_outline {c c' : Node} (h : c'.face.outline = c.face.outline) (full : String)
    (searchable : Bool) : closed? full searchable c' = closed? full searchable c := by
  rw [closed?, closed?, ← Node.allows_face, allows_of_outline h, Node.allows_face]

theorem blocked?_of_outline {c c' : Node} (h : c'.face.outline = c.face.outline) (p : Place) :
    blocked? root table p searchable c' = blocked? root table p searchable c := by
  have hclosed := fun full ↦ closed?_of_outline h full searchable
  cases c <;> cases c' <;> simp_all [blocked?, Node.face, Node.outline]

/-- The directories on the way to a place may be gone through if they allow it. -/
theorem searchableTo_iff {q : Place} :
    searchableTo q n = true ↔
      ∀ a, a <+: q → a ≠ q → ∀ d, n.faceAt? a = some d → d.allows .search = true := by
  induction q generalizing n with
  | nil =>
    refine iff_of_true rfl fun a ha hne ↦ absurd (List.prefix_nil.1 ha) hne
  | cons name rest ih =>
    rw [searchableTo, Bool.and_eq_true]
    constructor
    · rintro ⟨hself, hrest⟩ a ha hne d hd
      cases a with
      | nil =>
        rw [Node.faceAt?_nil] at hd
        rw [← Option.some.inj hd, Node.allows_face, hself]
      | cons first more =>
        obtain ⟨rfl, hmore⟩ := List.cons_prefix_cons.1 ha
        rw [Node.faceAt?_cons, Option.bind_eq_some_iff] at hd
        obtain ⟨c, hc, hd⟩ := hd
        rw [hc] at hrest
        exact ih.1 hrest more hmore (fun heq ↦ hne (heq ▸ rfl)) d hd
    · intro h
      refine ⟨?_, ?_⟩
      · have := h [] List.nil_prefix (List.cons_ne_nil name rest).symm n.face rfl
        rwa [Node.allows_face] at this
      · cases hc : n.entries.lookup name with
        | none => rfl
        | some c =>
          refine ih.2 fun a ha hne d hd ↦ h (name :: a) (List.cons_prefix_cons.2 ⟨rfl, ha⟩) ?_ d ?_
          · exact fun heq ↦ hne (List.cons.inj heq).2
          · rw [Node.faceAt?_cons, hc]
            exact hd

theorem searchableTo_of_outline {n' : Node}
    (h : ∀ q, (n'.faceAt? q).map Node.outline = (n.faceAt? q).map Node.outline) (q : Place) :
    searchableTo q n' = searchableTo q n := by
  have hallows : ∀ {n n' : Node},
      (∀ q, (n'.faceAt? q).map Node.outline = (n.faceAt? q).map Node.outline) →
      searchableTo q n = true → searchableTo q n' = true := by
    intro n n' h hn
    refine searchableTo_iff.2 fun a ha hne d' hd' ↦ ?_
    obtain ⟨d, hd, heq⟩ := Option.map_eq_some_iff.1 ((h a).symm.trans (congrArg _ hd'))
    rw [← allows_of_outline heq]
    exact searchableTo_iff.1 hn a ha hne d hd
  rw [Bool.eq_iff_iff]
  exact ⟨hallows fun q ↦ (h q).symm, hallows h⟩

/-- A walk that can open everything still can when files have other bytes. -/
theorem Opens.of_outline {n' : Node} (hopens : Opens root table [] true n)
    (h : ∀ q, (n'.faceAt? q).map Node.outline = (n.faceAt? q).map Node.outline) :
    Opens root table [] true n' := by
  intro q c' hc'
  have hface : n'.faceAt? q = some c'.face := congrArg (Option.map Node.face) hc'
  obtain ⟨d, hd, heq⟩ := Option.map_eq_some_iff.1 ((h q).symm.trans (congrArg _ hface))
  obtain ⟨c, hc, rfl⟩ := Option.map_eq_some_iff.1 hd
  rw [searchableTo_of_outline h, blocked?_of_outline heq.symm]
  exact hopens q c hc

end Transfer
end FirmwareLane
