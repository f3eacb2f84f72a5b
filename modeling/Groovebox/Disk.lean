/-! # A disk

The part of a file system that a library of songs needs: folders, files, and the ways in which an
operation is refused because something else is in its place. -/

namespace Groovebox

/-- The names from the top folder down; the top folder itself is the empty path. -/
abbrev Path := List String

/-- The text of a path, with slashes between its names. -/
def Path.text (p : Path) : String :=
  String.intercalate "/" p

/-- What a file holds: text, or bytes that are no UTF-8 text. -/
inductive Contents
  | text (value : String)
  | bytes (value : List UInt8)
deriving DecidableEq, Repr

/-- The contents of a file with the given bytes. -/
def Contents.ofBytes (bytes : List UInt8) : Contents :=
  match String.fromUTF8? ⟨bytes.toArray⟩ with
  | some value => .text value
  | none => .bytes bytes

/-- What is at a path. -/
inductive Node
  | file (contents : Contents)
  | folder
deriving DecidableEq, Repr

/-- A tree of folders and files, kept as its paths. A disk that is read-only refuses every
change. -/
structure Disk where
  /-- What is at each path, the top folder apart. -/
  nodes : List (Path × Node) := []
  /-- Whether changes are refused. -/
  readOnly : Bool := false
deriving DecidableEq, Repr

namespace Disk

instance : Inhabited Disk := ⟨{}⟩

/-! ## Looking -/

/-- What is at a path. -/
def node? (d : Disk) (p : Path) : Option Node :=
  if p = [] then some .folder else d.nodes.lookup p

/-- Whether there is a file at a path. -/
def isFile (d : Disk) (p : Path) : Bool :=
  match d.node? p with
  | some (.file _) => true
  | _ => false

/-- Whether there is a folder at a path. -/
def isFolder (d : Disk) (p : Path) : Bool :=
  d.node? p == some .folder

/-- The text of a file. -/
def text? (d : Disk) (p : Path) : Option String :=
  match d.node? p with
  | some (.file (.text t)) => some t
  | _ => none

/-- Whether a folder holds any file directly. -/
def holdsFiles (d : Disk) (folder : Path) : Bool :=
  d.nodes.any fun (p, _) => p ≠ [] && p.dropLast == folder && d.isFile p

/-- Whether a file stands where a path needs a folder. -/
def isObstructed (d : Disk) (p : Path) : Bool :=
  (List.range p.length).any fun n => d.isFile (p.take n)

/-- The paths of everything on the disk, sorted; those of folders end in a slash. -/
def listing (d : Disk) : List String :=
  (d.nodes.map fun (p, node) => Path.text p ++ (if node = .folder then "/" else "")).mergeSort
    fun a b => decide (a ≤ b)

/-- The paths and texts of all files that hold text. -/
def texts (d : Disk) : List (Path × String) :=
  d.nodes.filterMap fun (p, node) =>
    match node with
    | .file (.text t) => some (p, t)
    | _ => none

/-! ## Changing -/

/-- The disk with a node at a path, in place of what was there. -/
def put (d : Disk) (p : Path) (n : Node) : Disk :=
  { d with nodes := enter d.nodes }
where
  /-- Replaces the node at the path or adds it at the end. -/
  enter : List (Path × Node) → List (Path × Node)
    | [] => [(p, n)]
    | (q, m) :: rest => if q = p then (p, n) :: rest else (q, m) :: enter rest

/-- The disk without a path and all below it. -/
def cut (d : Disk) (p : Path) : Disk :=
  { d with nodes := d.nodes.filter fun (q, _) => !p.isPrefixOf q }

/-- Makes the folders `names` one in the other below `base`, where they are missing. Refused where
a file is in the way. -/
def makeFolders? (d : Disk) (base : Path) : List String → Option Disk
  | [] => some d
  | name :: rest =>
    let p := base ++ [name]
    match d.node? p with
    | some .folder => d.makeFolders? p rest
    | some (.file _) => none
    | none => if d.readOnly then none else (d.put p .folder).makeFolders? p rest

/-- Writes a file as a whole, so that at no time there is half of it. Refused where a folder is at
its path, or none above it. -/
def write? (d : Disk) (p : Path) (c : Contents) : Option Disk :=
  if d.readOnly || d.isFolder p || !d.isFolder p.dropLast then none else some (d.put p (.file c))

/-- Writes a file after making the folders above it. -/
def store? (d : Disk) (p : Path) (c : Contents) : Option Disk :=
  (d.makeFolders? [] p.dropLast).bind fun d => d.write? p c

/-- Moves a file to another path, in place of a file that may be there. -/
def rename? (d : Disk) (source target : Path) : Option Disk :=
  match d.node? source with
  | some (.file c) => if d.readOnly then none else (d.cut source).write? target c
  | _ => none

/-- What comes of removing a file. -/
inductive Removal
  | removed (disk : Disk)
  | missing
  | refused

/-- Removes a file. A folder is refused, and so is a path that leads through a file. -/
def remove (d : Disk) (p : Path) : Removal :=
  match d.node? p with
  | some (.file _) => if d.readOnly then .refused else .removed (d.cut p)
  | some .folder => .refused
  | none => if d.isObstructed p then .refused else .missing

end Disk
end Groovebox
