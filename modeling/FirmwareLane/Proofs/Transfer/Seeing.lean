import FirmwareLane.Proofs.Transfer.Captured
import FirmwareLane.Proofs.Transfer.Recapture

/-!
# What a capture sees

A capture looks at the tree that its root leads to, and at nothing else: at the names, at what kind
of thing stands under each, at the bytes of the files, and at what the owner may read and go through.
Which files are the same one, and every other permission, is left out of `Files.seen`, and a capture
is a function of that (`capture_eq_captureSeen`).

So what stands elsewhere cannot come in, not even through a link: a captured file stands in the tree
itself, below directories only, and its path, followed as any path is, comes to it
(`isTaken_of_capture`).
-/

set_option autoImplicit false
namespace FirmwareLane

/-! ## Trees with some of their permissions -/

namespace Node

mutual

/-- The tree with some of the permissions of its files and of its directories only, and without
identities. -/
def keeping (ofFiles ofDirectories : Nat) : Node → Node
  | file m b _ => file (m &&& ofFiles) b 0
  | directory m es =>
    directory (m &&& ofDirectories) (entriesKeeping ofFiles ofDirectories es)
  | other => other

/-- The entries with some of the permissions only, and without identities. -/
def entriesKeeping (ofFiles ofDirectories : Nat) : List (String × Node) → List (String × Node)
  | [] => []
  | (name, node) :: rest =>
    (name, node.keeping ofFiles ofDirectories) :: entriesKeeping ofFiles ofDirectories rest

end

/-- The names in a tree, the kinds of things under them, the bytes of the files and the targets of
the links. -/
def contents : Node → Node := keeping 0 0

/-- What a capture sees of a tree: its contents, the files and directories that the owner may read,
and the directories that the owner may go through. -/
def seen : Node → Node := keeping 0o400 0o500

/-- Permissions that are kept are those that were there. -/
theorem land_land_of_land_eq (m : Nat) {kept bit : Nat} (h : kept &&& bit = bit) :
    m &&& kept &&& bit = m &&& bit := by rw [Nat.and_assoc, h]

end Node

namespace Files

/-- What a capture sees at the end of a path, if there is anything. -/
def seen (fs : Files) (path : String) : Option Node := (fs.node path).toOption.map Node.seen

/-- The contents of the tree at the end of a path, if there is anything. -/
def contents (fs : Files) (path : String) : Option Node :=
  (fs.node path).toOption.map Node.contents

end Files

namespace Transfer

variable {fs fs' : Files} {root : String} {table : Classification} {s : Snapshot}

/-! ## A capture is a function of what it sees -/

theorem closed?_seen (full : String) (searchable : Bool) (n : Node) :
    closed? full searchable n.seen = closed? full searchable n := by
  have hallows : n.seen.allows .read = n.allows .read := by
    cases n with
    | file m b i =>
      have hread : 0o400 &&& 0o400 = 0o400 := rfl
      exact congrArg (· != 0) (Node.land_land_of_land_eq m hread)
    | directory m es =>
      have hread : 0o500 &&& 0o400 = 0o400 := rfl
      exact congrArg (· != 0) (Node.land_land_of_land_eq m hread)
    | link target => rfl
    | device d => rfl
  rw [closed?, closed?, hallows]

theorem allows_search_seen (m : Nat) (es : List (String × Node)) :
    (Node.directory m es).seen.allows .search = (Node.directory m es).allows .search := by
  have hsearch : 0o500 &&& 0o100 = 0o100 := rfl
  exact congrArg (· != 0) (Node.land_land_of_land_eq m hsearch)

mutual

/-- **A walk finds the same in what it sees of a tree.** -/
theorem registeredBelow_seen {place : Place} {searchable : Bool} : ∀ n : Node,
    registeredBelow root table place searchable n.seen =
      registeredBelow root table place searchable n
  | .directory m es => by
    have hdirectory : (Node.directory m es).seen =
      .directory (m &&& 0o500) (Node.entriesKeeping 0o400 0o500 es) := rfl
    rw [hdirectory, registeredBelow, registeredBelow, ← hdirectory, closed?_seen,
      allows_search_seen, registeredEntries_seen es]
  | .file m b i => by
    have hfile : (Node.file m b i).seen = .file (m &&& 0o400) b 0 := rfl
    have hreached : reached (Path.below root (relative place)) searchable (.file (m &&& 0o400) b 0) =
        reached (Path.below root (relative place)) searchable (.file m b i) := by
      rw [reached, reached, ← hfile, closed?_seen]
      rfl
    rw [hfile, registeredBelow_file, registeredBelow_file, hreached]
  | .link target => rfl
  | .device d => rfl

theorem registeredEntries_seen {place : Place} {searchable : Bool} : ∀ es : List (String × Node),
    registeredEntries root table place searchable (Node.entriesKeeping 0o400 0o500 es) =
      registeredEntries root table place searchable es
  | [] => rfl
  | (name, n) :: rest => by
    rw [Node.entriesKeeping, registeredEntries, registeredEntries, registeredEntries_seen rest]
    exact congrArg (· ++ _) (registeredBelow_seen n)

end

/-- The snapshot of what is seen at a root. -/
def captureSeen (root : String) (table : Classification) : Option Node → Except Fault Snapshot
  | some (.directory m es) => captureNode root table (.directory m es)
  | _ => .error (.rootNotFound root)

/-- **A capture is a function of what is seen at its root.** -/
theorem capture_eq_captureSeen (fs : Files) (root : String) (table : Classification) :
    capture fs root table = captureSeen root table (fs.seen root) := by
  rw [capture, directoryAt, Files.seen]
  cases fs.node root with
  | error fault => rfl
  | ok n =>
    cases n with
    | directory m es =>
      have hnode : captureNode root table (Node.directory m es).seen =
          captureNode root table (.directory m es) := by
        rw [captureNode, captureNode, registeredBelow_seen]
      exact hnode.symm
    | file m b i => rfl
    | link target => rfl
    | device d => rfl

/-- A directory with a file of some permissions. -/
def holding (mode : Nat) : Files where
  root := .directory 0o755 [("in", .directory 0o755 [("a.c", .file mode [120] 0)])]
  here := []

/-- Which files the owner may read is seen: one that may not be read cannot be captured. -/
theorem capture_of_unreadable :
    (holding 0o644).contents "in" = (holding 0).contents "in" ∧
    (capture (holding 0o644) "in" (.ofList [("c", .text)])).map Snapshot.entries =
      .ok [⟨"a.c", .text "x"⟩] ∧
    (capture (holding 0) "in" (.ofList [("c", .text)])).map Snapshot.entries =
      .error (.files "in/a.c" .denied) :=
  ⟨rfl, by decide +kernel, by decide +kernel⟩

/-! ## What is captured stands in the tree -/

/-- A registered file stands in a tree below directories only, and is what its path leads to. -/
structure Found.StandsIn (f : Found) (fs : Files) (root : String) (table : Classification)
    (n : Node) : Prop where
  at?_eq : n.at? f.place = some (.file f.mode f.bytes f.identity)
  unlinked : ∀ p c, p <+: f.place → n.at? p = some c → c.isLink = false
  encoding_eq : table.encoding? (relative f.place) = some f.encoding
  read_eq : fs.read (Path.below root (relative f.place)) = .ok f.bytes

/-- An entry is a file that stands in the directory at a root, as a capture records it. -/
def IsTaken (fs : Files) (root : String) (table : Classification) (e : Entry) : Prop :=
  ∃ place m es f, fs.find true root = .ok (.present place (.directory m es)) ∧
    Found.StandsIn f fs root table (.directory m es) ∧ f.IsCapturedAs e

/-- Only directories stand on the way to a file. -/
theorem isLink_of_at?_file {n c : Node} {p q : Place} {m i : Nat} {b : Text.Bytes}
    (h : n.at? q = some (.file m b i)) (hp : p <+: q) (hc : n.at? p = some c) :
    c.isLink = false := by
  obtain ⟨more, rfl⟩ := hp
  cases more with
  | nil =>
    rw [List.append_nil, hc] at h
    obtain rfl := Option.some.inj h
    rfl
  | cons name rest =>
    obtain ⟨k, es, habove⟩ := Node.exists_directory_of_at? (List.cons_ne_nil name rest) h
    obtain rfl := Option.some.inj (hc.symm.trans habove)
    rfl

/-- A file in its place is read under its path, if it may be. -/
theorem InPlace.read_eq {R : Place} {f : Found} (h : InPlace fs.root root R f)
    (hrooted : Rooted fs root R)
    (hallows : (Node.file f.mode f.bytes f.identity).allows .read = true) :
    fs.read (Path.below root (relative f.place)) = .ok f.bytes := by
  rw [Files.read, Files.node, Files.present_eq_ok.2 (h.find_eq hrooted true)]
  simp only [Except.map, hallows, if_true]
  rfl

/-- **A captured file stands in the tree, below directories only, and is what its path leads to.** -/
theorem standsIn_of_mem_found {R : Place} {n : Node} {f : Found} (hbased : Based fs root R n)
    (hsound : n.Sound) (hopens : Opens root table [] true n) (hf : f ∈ found table n) :
    f.StandsIn fs root table n := by
  obtain ⟨hat, hencoding⟩ := (mem_found hsound).1 hf
  have hplace := inPlace_of_mem_found hbased.at?_eq hbased.isDirectory hsound hopens hf
  have hrooted : Rooted fs root R := ⟨hbased.standing, ⟨n, hbased.find_eq⟩, hplace.searchable⟩
  have hblocked := hopens f.place _ hat
  rw [List.nil_append, blocked?, hencoding, Option.isSome_some, if_pos rfl, closed?_eq_none]
    at hblocked
  exact ⟨hat, fun _ _ hp hc ↦ isLink_of_at?_file hat hp hc, hencoding,
    hplace.read_eq hrooted hblocked.2.2⟩

/-- Every entry of a capture is a file that stands in the directory. -/
theorem isTaken_of_capture (hfs : fs.Sound) (h : capture fs root table = .ok s) {e : Entry}
    (he : e ∈ s.entries) : IsTaken fs root table e := by
  obtain ⟨files, hcaptured⟩ := captured_of_capture h
  obtain ⟨place, m, es, hfind, hnode⟩ := capture_eq_ok.1 h
  obtain ⟨place', m', es', hfind', rfl⟩ := hcaptured.files_eq
  obtain ⟨rfl, hsame⟩ := Files.present_unique hfind hfind'
  rw [hsame] at hnode
  have hbased : Based fs root place (.directory m' es') := ⟨hfs.standing, hfind', rfl⟩
  have hsound : (Node.directory m' es').Sound := Files.sound_of_find hfs.tree hfind'
  have hopens : Opens root table [] true (.directory m' es') :=
    (passes_registeredBelow hsound).1 (passes_of_addAll hnode)
  obtain ⟨f, hf, hfe⟩ := exists_mem_of_forall₂ hcaptured.entries_eq.flip he
  exact ⟨place, m', es', f, hfind', standsIn_of_mem_found hbased hsound hopens hf, hfe⟩

end Transfer
end FirmwareLane
