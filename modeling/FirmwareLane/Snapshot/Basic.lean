import FirmwareLane.Snapshot.Catalogue

/-!
# Snapshots

A snapshot is a consistent catalogue: a list of files in the order in which they were added, under
paths of normal form that differ from each other and stay below the root, with the position of
each.  Every operation keeps these rules, so a snapshot can be written to a directory whatever it
was made from.

A file is added (`insert`), added or put in the place of the one under its path (`upsert`), taken
out (`remove`) or kept by a condition (`filter`).
-/

set_option autoImplicit false
namespace FirmwareLane

/-- Files under different paths below a root. -/
structure Snapshot where
  catalogue : Snapshot.Catalogue
  consistent : catalogue.Consistent

namespace Snapshot

/-- The snapshot of no files. -/
def empty : Snapshot := ⟨.empty, Catalogue.consistent_empty⟩

instance : Inhabited Snapshot := ⟨empty⟩

/-! ## Access -/

/-- The files, in order. -/
def entries (s : Snapshot) : List Entry := s.catalogue.entries

/-- The paths, in order. -/
def paths (s : Snapshot) : List String := s.catalogue.paths

/-- The entry under a path. -/
def get? (s : Snapshot) (path : String) : Option Entry := s.catalogue.get? path

/-- Whether there is an entry under a path. -/
def contains (s : Snapshot) (path : String) : Bool := s.catalogue.contains path

/-- The number of entries. -/
def size (s : Snapshot) : Nat := s.entries.length

/-- The first entry with a name, in whatever directory. -/
def findByName? (s : Snapshot) (name : String) : Option Entry :=
  s.entries.find? fun e ↦ e.name == name

/-- The number of bytes of all files together. -/
def totalBytes (s : Snapshot) : Nat := s.entries.foldl (fun n e ↦ n + e.bytes.length) 0

/-- **Snapshots of the same files in the same order are equal.** -/
theorem ext {s t : Snapshot} (h : s.entries = t.entries) : s = t := by
  obtain ⟨c, hc⟩ := s
  obtain ⟨d, hd⟩ := t
  obtain rfl : c = d := hc.ext hd h
  rfl

instance : DecidableEq Snapshot := fun s t ↦
  if h : s.entries = t.entries then isTrue (ext h)
  else isFalse fun e ↦ h (congrArg entries e)

/-! ## Change -/

/-- The snapshot that a change leaves, and what it gives. -/
def after {α : Type} (s : Snapshot) (change : Catalogue.Change α)
    (keeps : (change.perform s.catalogue).2.Consistent) : Except Refusal (Snapshot × α) :=
  (change.perform s.catalogue).1.map fun a ↦ (⟨(change.perform s.catalogue).2, keeps⟩, a)

/-- The snapshot with one more entry, under the normal form of its path. -/
def insert (s : Snapshot) (e : Entry) : Except Refusal Snapshot :=
  (s.after (Catalogue.insert e) (Catalogue.consistent_insert s.consistent e)).map (·.1)

/-- The snapshot with an entry in the place of the one under its path, which is given too, or with
one more entry. -/
def upsert (s : Snapshot) (e : Entry) : Except Refusal (Snapshot × Option Entry) :=
  s.after (Catalogue.upsert e) (Catalogue.consistent_upsert s.consistent e)

/-- The entry under a path, and the snapshot without it. -/
def remove (s : Snapshot) (path : String) : Option Entry × Snapshot :=
  ((s.catalogue.remove path).1,
    ⟨(s.catalogue.remove path).2, Catalogue.consistent_remove s.consistent path⟩)

/-- The entries that satisfy a condition. -/
def filter (s : Snapshot) (keep : Entry → Bool) : Snapshot :=
  ⟨s.catalogue.retain keep, Catalogue.consistent_retain s.consistent keep⟩

/-- The snapshot of entries, added one after another. -/
def ofList (entries : List Entry) : Except Refusal Snapshot :=
  match h : Catalogue.ofList entries with
  | .ok c => .ok ⟨c, Catalogue.consistent_ofList h⟩
  | .error r => .error r

/-! ## The value that stands for a snapshot -/

instance : Json.Wire Snapshot where
  encode s := .array (s.entries.map Json.Wire.encode)
  decode origin d := do
    let entries ← Json.sequence (Json.Wire.decode (α := Entry)) origin d
    match ofList entries with
    | .ok s => .ok s
    | .error refusal => .error (.refused refusal.message)

/-! ## The digest -/

/-- The bytes of a number, the least significant first. -/
def littleEndian (width n : Nat) : Text.Bytes :=
  (List.range width).map fun i ↦ UInt8.ofNat (n / Nat.pow 256 i)

/-- What an entry contributes to the digest: path, encoding and content, each told from the next. -/
def fingerprint (e : Entry) : Text.Bytes :=
  Text.Utf8.bytes e.path ++ 0 :: (Text.Utf8.bytes e.encoding.name ++
    0 :: (littleEndian 8 e.bytes.length ++ e.bytes))

/-- The bytes that the digest is taken of: the contributions in the order of the paths. -/
def canonicalBytes (s : Snapshot) : Text.Bytes :=
  (s.entries.mergeSort fun a b ↦ decide (a.path ≤ b.path)).flatMap fingerprint

/-- The digest of paths, encodings and contents, whatever their order. -/
def digest (s : Snapshot) : String := Sha256.hex s.canonicalBytes

/-! ## Memory images -/

/-- The words of bytes, the least significant byte first; missing bytes at the end are zero. -/
def imageWords : Text.Bytes → List Nat
  | a :: b :: c :: d :: rest =>
    (a.toNat + 256 * b.toNat + 65536 * c.toNat + 16777216 * d.toNat) :: imageWords rest
  | [] => []
  | rest => [rest.foldr (fun b n ↦ b.toNat + 256 * n) 0]

/-- The words of the first file with a name, if it holds bytes. -/
def words? (s : Snapshot) (name : String) : Option (List Nat) := do
  let e ← s.findByName? name
  return imageWords (← e.content.binary?)

end Snapshot
end FirmwareLane
