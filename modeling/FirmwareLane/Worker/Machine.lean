import FirmwareLane.Files.Basic
import FirmwareLane.Time.Timestamp

/-!
# The machine that a worker runs on

A worker hands command lines to the shell of its machine, waits for their end, and collects what
they wrote.  Nothing is assumed about the shell: a command line may end in any way and change any
file.

The machine's clock counts milliseconds from some beginning.  It can tell a point in time only if
the whole seconds up to it fit in 63 bits, so a wait may end too late to be told.
-/

set_option autoImplicit false
namespace FirmwareLane

open Text (Bytes)

/-- How a command line ended. -/
inductive Ending where
  | exited (code : Int)
  /-- A signal ended it, so there is no code. -/
  | killed
  /-- It ran for too long and was ended. -/
  | timedOut
  /-- The shell could not be started. -/
  | unstartable (reason : String)
  /-- Nobody could tell how it ended. -/
  | lost (reason : String)
  deriving DecidableEq, Repr

/-- What came of a command line. -/
structure Run where
  ending : Ending
  stdout : Bytes
  stderr : Bytes
  startedAt : Timestamp
  /-- How many milliseconds it took. -/
  elapsed : Nat
  /-- What the clock said at its end. -/
  clock : Nat
  deriving Repr

/-- The machine that a worker runs on. -/
structure Machine where
  /-- Runs the command line of the operation with a number in a directory for at most so many
  milliseconds.  The same command line may do something else as another operation. -/
  run : (index : Nat) → (directory : String) → (timeout : Nat) → (commandLine : String) → Files →
    Run × Files
  /-- The time at which the operation with a number begins, if that is no command line. -/
  time : Nat → Timestamp
  /-- The number of nanoseconds that the clock on the wall shows when so many sandboxes exist. -/
  nanoseconds : Nat → Nat

/-- A request that cannot even be answered. -/
inductive Crash where
  /-- The clock cannot tell the end of a wait. -/
  | clockOverflow
  deriving DecidableEq, Repr

/-- How long, in milliseconds, the output of a command line is waited for at least. -/
def drainGrace : Nat := 1000

/-- The point in time until which the output of a command line is waited for. -/
def deadline (timeout : Nat) (r : Run) : Except Crash Nat :=
  let end_ := r.clock + max (timeout - r.elapsed) drainGrace
  if end_ / 1000 < Nat.pow 2 63 then .ok end_ else .error .clockOverflow

end FirmwareLane
