import FirmwareLane.Client.CommandLine
import FirmwareLane.Shell.Machine
import FirmwareLane.Worker.CommandLine

/-!
# The program

With `worker` as the first word this is the command line of a worker, else that of a client whose
worker runs in the same process.  Commands are run by the shell of this library on files in memory.
What the words of the command line name is read into that memory first, and what the command wrote
there is written out at the end.
-/

set_option autoImplicit false
open FirmwareLane

namespace Program

/-- The names in a path. -/
def placeOf (path : String) : Place :=
  ((Text.splitOn '/' path.toList).filter fun name ↦ !name.isEmpty).map String.ofList

/-- The tree with a node, and with the directories above it. -/
def withNode (root : Node) (place : Place) (node : Node) : Node :=
  let above := (List.range place.length).drop 1
  let root := above.foldl (fun r n ↦
    if (r.at? (place.take n)).isSome then r else r.put (place.take n) Node.emptyDirectory) root
  if place.isEmpty then root else root.put place node

/-- Reads what is at an entry of a directory.  Links are left out. -/
partial def readEntry (e : IO.FS.DirEntry) : IO (Option (String × Node)) := do
  match (← e.path.symlinkMetadata).type with
  | .file => return some (e.fileName, .file Node.fileMode (← IO.FS.readBinFile e.path).toList 0)
  | .dir =>
    let entries ← (← e.path.readDir).toList.filterMapM readEntry
    return some (e.fileName, .directory Node.directoryMode (Keyed.ofList entries))
  | _ => return none

/-- Reads what is at a path below the current directory, if something is there. -/
def readPath (path : String) : IO (Option Node) := do
  let full := (← IO.currentDir) / path
  if ← full.isDir then
    let entries ← (← full.readDir).toList.filterMapM readEntry
    return some (.directory Node.directoryMode (Keyed.ofList entries))
  else if ← full.pathExists then
    return some (.file Node.fileMode (← IO.FS.readBinFile full).toList 0)
  else return none

/-- The paths that words may name, an option with its value behind an equals sign included. -/
def pathsIn (words : List String) : List String :=
  (words.flatMap fun w ↦
    match Text.cutAt? '=' w.toList with
    | some (_, value) => [w, String.ofList value]
    | none => [w]).filter fun w ↦ !w.isEmpty && w.toList.head? != some '-'

/-- A machine's files with those that words name. -/
def readFiles (words : List String) : IO Files := do
  let here := placeOf (← IO.currentDir).toString
  let start : Files := ⟨withNode Shell.baseTree here Node.emptyDirectory, here⟩
  (pathsIn words).foldlM (fun fs path ↦ do
    match ← readPath path, fs.find true path with
    | some node, .ok (.vacant place) => return { fs with root := fs.root.put place node }
    | some node, .error _ =>
      let place := placeOf path
      let place := if Files.isAbsolute path then place else here ++ place
      return { fs with root := withNode fs.root place node }
    | _, _ => return fs) start

/-- Writes out the files below the paths that words name, if they are new or changed. -/
def writeFiles (words : List String) (before after : Files) : IO Unit := do
  for path in pathsIn words do
    if let .ok (place, node) := after.present true path then
      for (sub, n) in ([], node) :: node.descendants do
        let bytesBefore := (before.root.at? (place ++ sub)).map Node.bytes
        let target := "/".intercalate (path :: sub)
        match n with
        | .directory _ _ => IO.FS.createDirAll target
        | .file _ b _ =>
          if bytesBefore != some b then IO.FS.writeBinFile target (ByteArray.mk b.toArray)
        | _ => pure ()

/-- Reads a stream to its end. -/
partial def readAll (stream : IO.FS.Stream) (before : Text.Bytes) : IO Text.Bytes := do
  let piece ← stream.read 65536
  if piece.isEmpty then return before else readAll stream (before ++ piece.toList)

/-- The point in time at which the clock of the machine begins. -/
def epoch : Timestamp := ⟨1767225600, 0⟩

/-- The machine, whose clock has been running as long as that of the system. -/
def machine : IO Machine := do
  let uptime ← IO.monoMsNow
  return Shell.machine ⟨Shell.later epoch uptime, uptime⟩

/-- Prints what a command printed. -/
def show_ (c : Console) : IO UInt32 := do
  (← IO.getStdout).putStr c.stdout
  (← IO.getStderr).putStr c.stderr
  return UInt32.ofNat c.code

end Program

/-- Carries out the command line of a worker or of a client. -/
def main (args : List String) : IO UInt32 := do
  let m ← Program.machine
  let readsInput := args.any fun w ↦ w == "rpc" || w == "asm"
  let stdin ← if readsInput then Program.readAll (← IO.getStdin) [] else pure []
  match args with
  | "worker" :: words => do
    let files ← Program.readFiles words
    let (console, _) := WorkerCommand.run m words stdin ⟨files, 0⟩
    Program.show_ console
  | words => do
    let files ← Program.readFiles (ClientConfig.defaultPath :: words)
    let worker : Host := ⟨⟨Shell.baseTree, []⟩, 0⟩
    let transportTo (c : ClientConfig) : Transport Host :=
      .inProcess c.endpoint.describe m WorkerConfig.default
    let here := (← IO.currentDir).toString
    let (console, after, _) :=
      ClientCommand.run transportTo (← IO.monoMsNow) words stdin here files worker
    Program.writeFiles words files after
    Program.show_ console
