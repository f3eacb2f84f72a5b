import Groovebox.Disk
/-! # Routes

A file or folder is named by a text: names with slashes between them, to be walked one after the
other from the top folder. Double dots lead back up. So a route may lead into folders and out of
them again, and nobody can walk it unless they are there. -/

namespace Groovebox

/-- The walk that a text describes. -/
structure Route where
  /-- Where it ends. -/
  target : Path := []
  /-- The folders that it leads into and out of again, in this order. -/
  detours : List Path := []
deriving DecidableEq, Repr

namespace Route

/-- The most bytes that a name can have. -/
def longestName : Nat := 255

/-- Whether a file or folder can have a name. -/
def isName (name : String) : Bool :=
  name.utf8ByteSize ≤ longestName && name.toList.all fun c => c.toNat ≠ 0

/-- Goes one name further. An empty name and a single dot lead nowhere. No route leads up from the
top folder, or on to a name that nothing can have. -/
def step? (r : Route) (name : String) : Option Route :=
  if name = "" ∨ name = "." then some r
  else if name = ".." then
    if r.target = [] then none
    else some { target := r.target.dropLast, detours := r.detours ++ [r.target] }
  else if isName name then some { r with target := r.target ++ [name] }
  else none

/-- The route that a text describes. A text that starts with a slash does not start at the top
folder, so it describes none. -/
def ofText? (text : String) : Option Route :=
  match text.splitOn "/" with
  | "" :: _ :: _ => none
  | names => names.foldlM step? {}

end Route

/-! ## On a disk -/

/-- How a text leads to a place on a disk. -/
inductive Way
  /-- To a path, whether or not something is there. -/
  | clear (target : Path)
  /-- To a path, but only once folders are made on the way to it, as they are on `mended`. -/
  | broken (target : Path) (mended : Disk)
  /-- To no path of the disk, or through a file. -/
  | blocked
deriving DecidableEq, Repr

namespace Disk

/-- How a text leads to a place. -/
def wayTo (d : Disk) (text : String) : Way :=
  match Route.ofText? text with
  | none => .blocked
  | some r =>
    if r.detours.all d.isFolder then .clear r.target
    else
      match r.detours.foldlM (fun d p => d.makeFolders? [] p) d with
      | none => .blocked
      | some mended => .broken r.target mended

/-- The path that a text leads to, and the disk with the folders made that are missing on the
way. -/
def mend? (d : Disk) (text : String) : Option (Path × Disk) :=
  match d.wayTo text with
  | .clear p => some (p, d)
  | .broken p d => some (p, d)
  | .blocked => none

/-- The text of the file that a text leads to. -/
def textAt? (d : Disk) (text : String) : Option String :=
  match d.wayTo text with
  | .clear p => d.text? p
  | _ => none

/-- Writes a file where a text leads to, after making the folders on the way and above it. -/
def storeAt? (d : Disk) (text : String) (c : Contents) : Option Disk :=
  (d.mend? text).bind fun (p, d) => d.store? p c

/-- Makes the folder that a text leads to, and those on the way and above it. -/
def makeAt? (d : Disk) (text : String) : Option Disk :=
  (d.mend? text).bind fun (p, d) => d.makeFolders? [] p

/-- The disk without what a text leads to and all below it. -/
def cutAt (d : Disk) (text : String) : Disk :=
  match d.wayTo text with
  | .clear p => d.cut p
  | _ => d

end Disk
end Groovebox
