import RegionSalvage.CommandLine.Run
import Std.Time.DateTime.Timestamp

/-! # The program

The program loads what its command line names from the disk, runs the command on it, and puts what
has changed back on the disk.
-/

namespace RegionSalvage.Program

/-- What stands at a place on the disk. -/
def nodeOnDisk (place : Location) : IO (Option FileNode) := do
  let path := FileTree.pathOf place
  try
    let real ← IO.FS.realPath path
    if ← real.isDir then return some .directory
    else return some (.file (← IO.FS.readBinFile real))
  catch _ => return none

/-- Loads everything on the way to a path. -/
def load (files : FileTree) (path : String) : IO FileTree :=
  (FileTree.waypoints path).foldlM (fun files place => do
    if (files.node? place).isSome then return files
    match ← nodeOnDisk place with
    | none => return files
    | some node => return files.put place node) files

/-- Puts what is new or has changed on the disk. -/
def store (before after : FileTree) : IO Unit :=
  after.entries.forM fun (place, node) => do
    let path := FileTree.pathOf place
    match node, before.node? place with
    | .directory, some .directory => return
    | .directory, _ => IO.FS.createDir path
    | .file content, some (.file old) =>
      if content != old then IO.FS.writeBinFile path content
    | .file content, _ => IO.FS.writeBinFile path content

def run (arguments : List String) : IO UInt32 := do
  let paths := match Request.ofArguments arguments with
    | .ok request => request.command.paths
    | .error _ => []
  let files ← paths.foldlM load {}
  let now := (← Std.Time.Timestamp.now).toSecondsSinceUnixEpoch.val
  let host : Host := { toolkit := Volume.extReport? }
  let documents : Nbt.Reader := ⟨fun data => (Nbt.Document.parse data).toOption⟩
  let outcome := Machine.run { host, files, now, documents } arguments
  store files outcome.files
  IO.print outcome.output
  IO.eprint outcome.diagnostics
  match outcome.ending with
  | .exit code => return code.toUInt32
  | .abrupt e =>
    IO.eprintln e.message
    return 1

end RegionSalvage.Program

/-- The program: runs its command line, and reports what the disk refuses. -/
def main (arguments : List String) : IO UInt32 := do
  try RegionSalvage.Program.run arguments
  catch e =>
    IO.eprintln s!"Error: {e}"
    return 1
