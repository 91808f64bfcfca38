/-
The program of the command line.

The files that a run can look at are loaded into a disk, the run is made on that disk,
and the databases and directories it leaves are written back.  Databases are kept in
files as documents.
-/
import AccessStore.CommandLine
import AccessStore.Database.Snapshot

namespace AccessStore.Main

/-- The path of a place; a name that is no text is not found on the system. -/
def pathOf (place : Place) : String :=
  "/" ++ "/".intercalate (place.map fun name => (Text.ofOctets? name).getD "")

/-- What a file holds. -/
def entryOf (content : ByteArray) : Entry :=
  match String.fromUTF8? content with
  | none => .bytes content.size
  | some s =>
      match Snapshot.ofText? s with
      | some file => .database file
      | none => .text s

/-- What stands at a path. -/
def entryAt (path : String) : IO (Option Entry) := do
  let file := (← IO.currentDir) / path
  if ← file.isDir then pure (some .directory)
  else if ← file.pathExists then
    let content ← IO.FS.readBinFile file
    pure (some (entryOf content))
  else pure none

/-- The places that a path leads through. -/
def stages (disk : Disk) (path : Path) : List Place :=
  let turns := (Disk.parts path).foldl
    (fun stages part => Disk.follow (stages.headD []) part :: stages) [disk.start path]
  (turns.flatMap fun place => (List.range place.length).map fun n => place.take (n + 1)).eraseDups

/-- Load what stands on the way to a path. -/
def load (disk : Disk) (path : Path) : IO Disk :=
  (stages disk path).foldlM (fun loaded here => do
    match ← entryAt (pathOf here) with
    | some entry => pure (loaded.put here entry)
    | none => pure loaded) disk

/-- Write back what a run left on the way to a path. -/
def save (disk : Disk) (path : Path) : IO Unit := do
  for here in (stages disk path).mergeSort (·.length ≤ ·.length) do
    match disk.entry? here with
    | some .directory => IO.FS.createDirAll (pathOf here)
    | some (.database file) => IO.FS.writeFile (pathOf here) (Snapshot.text file)
    | some (.text content) =>
        let file := (← IO.currentDir) / pathOf here
        unless ← file.pathExists do
          IO.FS.writeFile file content
    | _ => pure ()

/-- An empty disk, with paths starting where the program was started. -/
def emptyDisk : IO Disk := do
  let here := (← IO.currentDir).toString
  pure { entries := .empty, current := (Disk.parts (.ofText here)).filter (· ≠ []) }

/-- Run the command line on the files of the system. -/
def run (arguments : List String) : IO UInt32 := do
  let disk ← ((arguments.take 1).map Path.ofText).foldlM load (← emptyDisk)
  let paths := match CommandLine.configOf disk arguments with
    | .ok config => CommandLine.paths config
    | .error _ => []
  let disk ← paths.foldlM load disk
  let result := CommandLine.run arguments disk
  paths.forM (save result.disk)
  for line in result.output do
    IO.println line
  if let some message := result.complaint then
    IO.eprintln ("secstore: " ++ message)
  pure result.exitCode.toUInt32

end AccessStore.Main

/-- Run the command line. -/
def main (arguments : List String) : IO UInt32 := AccessStore.Main.run arguments
