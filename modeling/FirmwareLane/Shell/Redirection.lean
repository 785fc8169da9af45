import FirmwareLane.Shell.Subshell

/-!
# Redirections

How a shell makes descriptors lead to files, to other descriptors and to lines of input.  What the
words of all redirections of a command say is found out before any of them is carried out.
-/

set_option autoImplicit false
namespace FirmwareLane
namespace Shell

open Act

/-! ## Files -/

/-- Says that a file cannot be opened. -/
def notOpened (path : Chars) (making : Bool) (fault : Files.Fault) : Act (Option Nat) := do
  let isMissing := fault = .notFound || fault = .notDirectory
  let reason := if !isMissing then fault.reason
    else if making then "Directory nonexistent" else "No such file"
  report ((if making then "cannot create " else "cannot open ") ++ path.string ++ ": " ++ reason)
  return none

/-- How a file is opened to be written: at its end, with what it holds kept, only if it is new, and
also to be read. -/
structure Writing where
  append : Bool
  keep : Bool
  new : Bool
  readable : Bool

/-- Opens a file to be written. -/
def openToWrite (x : Writing) (path : Chars) : Act (Option Nat) := do
  let fs ← files
  match fs.find true path.string with
  | .error fault => notOpened path true fault
  | .ok (.present _ (.device d)) => return some (← newStream (.device d))
  | .ok (.present place node) => do
    if node.isDirectory then notOpened path true .isDirectory
    else if node.isLink then notOpened path true .tooManyLinks
    else if x.new then notOpened path true .taken
    else if !node.allows .write || (x.readable && !node.allows .read) then
      notOpened path true .denied
    else
      unless x.append || x.keep do
        reshape fun root ↦ root.alterFile place fun n ↦ .file n.mode [] n.identity
      return some (← openFile place 0 x.append x.readable true)
  | .ok (.vacant place) => do
    if path.getLast? = some '/' then notOpened path true .isDirectory
    else if !fs.mayChange place then notOpened path true .denied
    else
      let mask := (← process).umask
      reshape fun root ↦ root.put place (.file (0o666 - (0o666 &&& mask)) [] 0)
      return some (← openFile place 0 x.append x.readable true)

/-- Opens a file to be read. -/
def openToRead (path : Chars) : Act (Option Nat) := do
  match (← files).present true path.string with
  | .error fault => notOpened path false fault
  | .ok (_, .device d) => return some (← newStream (.device d))
  | .ok (place, node) =>
    if node.allows .read then return some (← openFile place 0 false true false)
    else notOpened path false .denied

/-! ## Descriptors -/

/-- Makes a descriptor another name of the stream of one; tells whether that is open. -/
def duplicate (descriptor other : Nat) : Act Bool := do
  match (← process).descriptors.lookup other with
  | some n => do
    connect descriptor n
    return true
  | none => do
    report ((number other).string ++ ": Bad file descriptor")
    return false

/-- What the word of a redirection says; nothing if it stands for lines of input. -/
def targetOf (runner : Runner) (r : Redirect) : Act (Option Chars) := do
  match r with
  | .mk _ .here _ => return none
  | .mk _ kind w => do
    let target ← single (output runner) .front w
    let isDescriptor := match target with
      | [c] => c.isDigit || c = '-'
      | _ => false
    if kind = .duplicate && !isDescriptor then fail "Syntax error: Bad fd number"
    else return some target

/-- Carries out a redirection, given what its word says; tells whether it could be. -/
def redirect (runner : Runner) (r : Redirect) (target : Option Chars) : Act Bool := do
  let (.mk descriptor kind w) := r
  let path := target.getD []
  let opened (n : Act (Option Nat)) : Act Bool := do
    match descriptorPaths.lookup path.string with
    | some other => duplicate descriptor other
    | none =>
      match ← n with
      | some n => do
        connect descriptor n
        return true
      | none => return false
  match kind with
  | .input => opened (openToRead path)
  | .output => opened (openToWrite ⟨false, false, ← hasOption 'C', false⟩ path)
  | .overwrite => opened (openToWrite ⟨false, false, false, false⟩ path)
  | .append => opened (openToWrite ⟨true, true, false, false⟩ path)
  | .readWrite => opened (openToWrite ⟨false, true, false, true⟩ path)
  | .here => do
    match ← outcome (single (output runner) .nowhere w) with
    | .ok text => do
      connect descriptor (← newStream (.source text false 0))
      return true
    | .error .failed => return false
    | .error flow => throw flow
  | .duplicate =>
    match number? path with
    | some other => duplicate descriptor other
    | none => do
      close descriptor
      return true

/-- Carries out redirections up to the first that cannot be; tells whether all could be. -/
def redirectEach (runner : Runner) : List (Redirect × Option Chars) → Act Bool
  | [] => return true
  | (r, target) :: rest => do
    if ← redirect runner r target then redirectEach runner rest else return false

/-- What the words of redirections say, with the redirections. -/
def targetsOf (runner : Runner) (redirects : List Redirect) :
    Act (List (Redirect × Option Chars)) :=
  redirects.mapM fun r ↦ do return (r, ← targetOf runner r)

end Shell
end FirmwareLane
