import FirmwareLane.Snapshot.Basic

/-!
# What changed between two snapshots

The files of a later snapshot that an earlier one does not have, or has with other bytes.  Whether
the bytes were text does not matter, and a file that only the earlier snapshot has is no change.
-/

set_option autoImplicit false
namespace FirmwareLane
namespace Snapshot

/-- How a file changed. -/
inductive Change where
  /-- The file is new. -/
  | added
  /-- The file has other bytes. -/
  | modified
  deriving DecidableEq, Repr

/-- The name of a change. -/
def Change.name : Change → String
  | .added => "added"
  | .modified => "modified"

/-- How an entry changed against an earlier snapshot, if it did. -/
def change? (before : Snapshot) (e : Entry) : Option Change :=
  match before.get? e.path with
  | none => some .added
  | some old => if old.bytes = e.bytes then none else some .modified

/-- The entries of a snapshot that changed against an earlier one. -/
def modified (before after : Snapshot) : Snapshot :=
  after.filter fun e ↦ (before.change? e).isSome

/-- The paths that changed, and how. -/
def changes (before after : Snapshot) : List (String × Change) :=
  after.entries.filterMap fun e ↦ (before.change? e).map fun c ↦ (e.path, c)

end Snapshot
end FirmwareLane
