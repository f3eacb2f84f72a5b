import Groovebox.Disk
import Groovebox.Document.Raw
import Groovebox.Stored.Reading
import Groovebox.Stored.Writing
/-! # The library of sets

A library keeps up to 32 songs, its sets, in one file each. An older library kept all songs in one
file, from which they are carried over once. -/

namespace Groovebox

/-- A library on a disk, below a folder. -/
structure Library where
  /-- The disk. -/
  disk : Disk := {}
  /-- The folder of the library. -/
  root : Path := []
deriving DecidableEq, Repr

/-- Why a library refused something. -/
inductive LibraryFault
  | indexOutOfRange (index : Nat)
  | folderRefused
  | writeRefused (index : Nat)
  | removalRefused (index : Nat)
  | unreadable
  | unparsable
  | backupRefused
deriving DecidableEq, Repr

/-- The message for a refusal, where `root` is the name of the library's folder. -/
def LibraryFault.message (root : String) : LibraryFault → String
  | indexOutOfRange i => "set index " ++ toString i ++ " out of range"
  | folderRefused => "creating " ++ root ++ "/sets"
  | writeRefused i => "writing " ++ root ++ "/sets/" ++ toString i ++ ".json"
  | removalRefused i => "removing " ++ root ++ "/sets/" ++ toString i ++ ".json"
  | unreadable => "reading " ++ root ++ "/sets.json"
  | unparsable => "parsing " ++ root ++ "/sets.json"
  | backupRefused => "renaming " ++ root ++ "/sets.json to " ++ root ++ "/sets.json.backup"

namespace Library

/-! ## Places -/

/-- The number of sets. -/
def capacity : Nat := 32

/-- The folder of the sets. -/
def setsPath (l : Library) : Path :=
  l.root ++ ["sets"]

/-- The file of a set. -/
def setPath (l : Library) (i : Nat) : Path :=
  l.root ++ ["sets", toString i ++ ".json"]

/-- The file of an older library. -/
def legacyPath (l : Library) : Path :=
  l.root ++ ["sets.json"]

/-- Where the file of an older library goes once its songs are carried over. -/
def backupPath (l : Library) : Path :=
  l.root ++ ["sets.json.backup"]

/-! ## Sets -/

/-- Whether a set has a file. -/
def has (l : Library) (i : Nat) : Bool :=
  l.disk.isFile (l.setPath i)

/-- The song that the text of a file holds; what is no JSON holds an empty one. -/
def songOf (text : String) : Song :=
  match Document.parse? text with
  | some d => Song.ofDocument d
  | none => {}

/-- The song of a set; a set without a readable file is empty. -/
def load (l : Library) (i : Nat) : Song :=
  match l.disk.text? (l.setPath i) with
  | some text => songOf text
  | none => {}

/-- Writes the song of a set. -/
def save (l : Library) (i : Nat) (song : Song) : Except LibraryFault Library :=
  if capacity ≤ i then .error (.indexOutOfRange i)
  else
    match l.disk.makeFolders? [] l.setsPath with
    | none => .error .folderRefused
    | some disk =>
      match disk.write? (l.setPath i) (.text song.text) with
      | none => .error (.writeRefused i)
      | some disk => .ok { l with disk }

/-- Removes the file of a set. The answer says whether there was one. -/
def delete (l : Library) (i : Nat) : Except LibraryFault (Bool × Library) :=
  match l.disk.remove (l.setPath i) with
  | .removed disk => .ok (true, { l with disk })
  | .missing => .ok (false, l)
  | .refused => .error (.removalRefused i)

/-- The sets whose song has content, ascending. -/
def populated (l : Library) : List Nat :=
  (List.range capacity).filter fun i => l.has i && (l.load i).hasContent

/-! ## Carrying over an older library -/

/-- The songs with content of an older library, as far as there are sets for them. -/
def legacySongs (d : Document) : List (Nat × Song) :=
  (((d.items?.getD []).take capacity).zipIdx.map fun (d, i) => (i, Song.ofDocument d)).filter
    fun (_, song) => song.hasContent

/-- Saves songs in turn up to the first that is refused. -/
def saveAll (l : Library) : List (Nat × Song) → Except LibraryFault Unit × Library
  | [] => (.ok (), l)
  | (i, song) :: rest =>
    match l.save i song with
    | .error fault => (.error fault, l)
    | .ok l => l.saveAll rest

/-- Carries the songs of an older library over and puts its file aside. Nothing is done while any
set has a file. The answer is the number of songs; songs saved before a refusal stay. -/
def migrate (l : Library) : Except LibraryFault Nat × Library :=
  if !l.disk.isFile l.legacyPath || l.disk.holdsFiles l.setsPath then (.ok 0, l)
  else
    match l.disk.text? l.legacyPath with
    | none => (.error .unreadable, l)
    | some text =>
      match Document.parse? text with
      | none => (.error .unparsable, l)
      | some d =>
        let songs := legacySongs d
        match l.saveAll songs with
        | (.error fault, l) => (.error fault, l)
        | (.ok (), l) =>
          match l.disk.rename? l.legacyPath l.backupPath with
          | none => (.error .backupRefused, l)
          | some disk => (.ok songs.length, { l with disk })

end Library
end Groovebox
