import Groovebox.Console
/-! # The program

Runs the console on the standard streams. The console works on a `Disk`; before each line the
library's folder is looked at anew, and afterwards what changed is written. Where that fails, the
line is run again on a disk that refuses all changes, so that the song stays unsaved and is tried
again later. -/

namespace Groovebox.Program

/-- The place that a path has below a folder. -/
def placeOf (base : String) (p : Path) : String :=
  if base.isEmpty then p.text else base ++ "/" ++ p.text

/-- What is at a place of the file system. -/
def lookAt (place : String) : IO (Option Node) := do
  try
    if ← (← IO.FS.realPath place).isDir then return some .folder
    return some (.file (Contents.ofBytes (← IO.FS.readBinFile place).toList))
  catch _ => return none

/-- The names in a folder. -/
def namesIn (place : String) : IO (List String) := do
  if (← lookAt place) = some .folder then
    let folder ← IO.FS.realPath place
    return (← folder.readDir).toList.map fun entry => entry.fileName
  else return []

/-- The part of a folder that a library uses, as a disk. -/
def readDisk (base : String) : IO Disk := do
  let sets ← namesIn (placeOf base ["sets"])
  let paths := [["config.json"], ["sets.json"], ["sets.json.backup"], ["sets"]] ++
    sets.map fun name => ["sets", name]
  paths.foldlM (fun (d : Disk) p => do
    match ← lookAt (placeOf base p) with
    | some node => return d.put p node
    | none => return d) {}

/-- Writes a file as a whole by way of a file beside it. -/
def writeWhole (place text : String) : IO Unit := do
  let beside := place ++ ".new"
  IO.FS.writeFile beside text
  IO.FS.rename beside place

/-- Makes a folder the same as a disk, given the disk that it was the same as. -/
def writeChanges (base : String) (before after : Disk) : IO Unit := do
  for (p, node) in after.nodes do
    unless before.node? p = some node do
      let place := placeOf base p
      match node with
      | .folder => IO.FS.createDirAll place
      | .file (.text t) => writeWhole place t
      | .file (.bytes bs) => IO.FS.writeBinFile place ⟨bs.toArray⟩
  for (p, _) in before.nodes do
    if (after.node? p).isNone then IO.FS.removeFile (placeOf base p)

/-- Runs a step of the console on the folder as it is now, and writes what it changed. -/
def onDisk {α : Type} (base : String) (step : Disk → α) (disk : α → Disk) : IO α := do
  let before ← readDisk base
  let result := step before
  try
    writeChanges base before (disk result)
    return result
  catch _ => return step { before with readOnly := true }

/-- The disk of a desk. -/
def diskOf (r : List String × Desk) : Disk := r.2.session.library.disk

/-- A desk on another state of its disk, whose calls were handed over. -/
def withDisk (d : Desk) (disk : Disk) : Desk :=
  { d with session.library.disk := disk, sent := [] }

/-- Runs a step at a desk and prints what it says. -/
def runStep (base : String) (d : Desk) (step : Desk → List String × Desk) : IO Desk := do
  let (said, d) ← onDisk base (fun disk => step (withDisk d disk)) diskOf
  for text in said do IO.println text
  return d

/-- Reads the next line in the background; none at the end of the input. -/
def nextLine (input : IO.FS.Stream) : IO (Task (Except IO.Error (Option String))) :=
  IO.asTask do
    let line ← input.getLine
    return if line.isEmpty then none else (Text.lines line).head?

/-- Runs lines as they come, and in between does what is due. -/
partial def serve (base : String) (input : IO.FS.Stream) (began : Nat) (d : Desk)
    (coming : Task (Except IO.Error (Option String))) : IO Desk := do
  let now := (← IO.monoMsNow) - began
  if ← IO.hasFinished coming then
    match coming.get with
    | .ok (some text) =>
      if Command.parse? text = some .quit then return d
      let d ← runStep base d fun d => Console.line d now text
      serve base input began d (← nextLine input)
    | _ => return d
  else
    IO.sleep (UInt32.ofNat (min d.settings.tick 1000))
    if (d.session.queue.dueAt now).isEmpty then serve base input began d coming
    else serve base input began (← runStep base d fun d => ([], (d.tick now).2)) coming

end Groovebox.Program

open Groovebox Program in
/-- Opens the library that the arguments name and serves it until the input ends. -/
def main (arguments : List String) : IO Unit := do
  let base := Console.shownOf (toString (← IO.currentDir)) arguments
  let began ← IO.monoMsNow
  let seed := UInt64.ofNat (← IO.monoNanosNow)
  let (said, d) ← onDisk base
    (fun disk => Console.start { disk } base (Console.setOf arguments) seed) diskOf
  for text in said do IO.println text
  let input ← IO.getStdin
  let d ← serve base input began d (← nextLine input)
  let now := (← IO.monoMsNow) - began
  discard <| runStep base d fun d => ([], (d.flush now).2)
