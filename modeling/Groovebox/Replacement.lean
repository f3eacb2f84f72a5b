import Groovebox.Library
/-! # Replacing files

The file of a set is replaced as a whole. Its new contents first go to a spare file in the same
folder, which then takes the place of the old file. An operation may break off at any stage of this,
because of what is on the disk or for a reason that the disk does not show; then the spare file is
removed again. -/

namespace Groovebox

/-- Where an operation breaks off for a reason that the disk does not show: no room is left, access
is denied, a device fails. -/
inductive Mishap
  /-- When the folder of the sets is made, after the first few folders on the way to it. -/
  | makingFolders (made : Nat)
  /-- Before there is a spare file. -/
  | openingSpare
  /-- While the spare file is filled; this is what it holds by then. -/
  | fillingSpare (written : Contents)
  /-- Before the spare file takes the place of the file. -/
  | movingSpare
  /-- Before a file is removed. -/
  | removing
deriving DecidableEq, Repr

/-- What an operation meets besides what is on the disk. -/
structure Trial where
  /-- The names that are tried for the spare file, one after the other. -/
  names : List String
  /-- What goes wrong. -/
  mishap : Option Mishap := none
deriving DecidableEq, Repr

namespace Disk

/-- Whether nothing is at a path or below it. -/
def isFree (d : Disk) (p : Path) : Bool :=
  d.nodes.all fun (q, _) => !p.isPrefixOf q

/-- The path of a spare file in a folder, with the first of some names that is free. -/
def spare? (d : Disk) (folder : Path) (names : List String) : Option Path :=
  (names.map fun name => folder ++ [name]).find? d.isFree

/-- The path for a spare file in a folder that takes new files. -/
def openSpare? (d : Disk) (folder : Path) (t : Trial) : Option Path :=
  if d.readOnly || !d.isFolder folder || t.mishap = some .openingSpare then none
  else d.spare? folder t.names

/-- Writes the contents of a spare file. The answer says whether they are complete. -/
def fillSpare (d : Disk) (spare : Path) (c : Contents) (t : Trial) : Bool × Disk :=
  match t.mishap with
  | some (.fillingSpare written) => (false, d.put spare (.file written))
  | _ => (true, d.put spare (.file c))

/-- Puts a spare file in the place of another. -/
def moveSpare? (d : Disk) (spare target : Path) (t : Trial) : Option Disk :=
  if t.mishap = some .movingSpare then none else d.rename? spare target

/-- Writes a file by way of a spare one. The answer says whether it was written. -/
def replace (d : Disk) (p : Path) (c : Contents) (t : Trial) : Bool × Disk :=
  match d.openSpare? p.dropLast t with
  | none => (false, d)
  | some spare =>
    match d.fillSpare spare c t with
    | (false, d) => (false, d.cut spare)
    | (true, d) =>
      match d.moveSpare? spare p t with
      | some d => (true, d)
      | none => (false, d.cut spare)

end Disk

namespace Library

/-- What a library can be asked to do with the file of a set. -/
inductive Request
  | save (index : Nat) (song : Song)
  | delete (index : Nat)

/-- The set that a request is about. -/
def Request.index : Request → Nat
  | save i _ => i
  | delete i => i

/-- What a library answers: that it refused, or else whether it wrote or removed a file. -/
abbrev Answer := Except LibraryFault Bool

/-- Makes the folder of the sets. -/
def makeSets (l : Library) (t : Trial) : Bool × Disk :=
  match t.mishap with
  | some (.makingFolders made) =>
    (false, (l.disk.makeFolders? [] (l.setsPath.take made)).getD l.disk)
  | _ =>
    match l.disk.makeFolders? [] l.setsPath with
    | some disk => (true, disk)
    | none => (false, l.disk)

/-- Serves a request as far as a trial allows. Unlike a refusal of `save` or `delete`, this one
shows what is on the disk after it. -/
def serve (l : Library) (r : Request) (t : Trial) : Answer × Library :=
  match r with
  | .save i song =>
    if capacity ≤ i then (.error (.indexOutOfRange i), l)
    else
      match l.makeSets t with
      | (false, disk) => (.error .folderRefused, { l with disk })
      | (true, disk) =>
        match disk.replace (l.setPath i) (.text song.text) t with
        | (true, disk) => (.ok true, { l with disk })
        | (false, disk) => (.error (.writeRefused i), { l with disk })
  | .delete i =>
    if t.mishap = some .removing then (.error (.removalRefused i), l)
    else
      match l.delete i with
      | .ok (was, l) => (.ok was, l)
      | .error fault => (.error fault, l)

/-- Serves requests in turn. The log has each of them with its answer. -/
def serveAll (l : Library) : List (Request × Trial) → List (Request × Answer) × Library
  | [] => ([], l)
  | (r, t) :: rest =>
    let (answer, l) := l.serve r t
    let (log, l) := l.serveAll rest
    ((r, answer) :: log, l)

end Library
end Groovebox
