import Groovebox.Desk
import Groovebox.Route
/-! # The console

Commands are typed one to a line: a word and its numbers. The console runs them against a desk and
says what came of them. -/

namespace Groovebox

/-- What a line can ask for. -/
inductive Command
  | edit (e : Edit)
  | play (on : Bool)
  | openSet (index : Nat)
  | save
  | quit
deriving DecidableEq, Repr

namespace Command

/-- The number at a position among words. -/
def int? (words : List String) (i : Nat) : Option Int :=
  words[i]?.bind Text.int64?

/-- The number at a position among words, if it is not negative. -/
def nat? (words : List String) (i : Nat) : Option Nat :=
  ((int? words i).filter (0 ≤ ·)).map Int.toNat

/-- A number that eight bits hold. -/
def byte? (n : Int) : Option Nat :=
  if 0 ≤ n ∧ n ≤ 255 then some n.toNat else none

/-- The edit that words ask for; words past its numbers are ignored. -/
def edit? (words : List String) : Option Edit :=
  let int := int? words
  let nat := nat? words
  match words.head? with
  | some "note" => do
    let velocity ← match int 4 with
      | some v => byte? v
      | none => some 100
    return .toggleNote (← nat 1) (← nat 2) (← byte? (← int 3)) velocity
  | some "clear" => return .clearStep (← nat 1) (← nat 2)
  | some "prob" => return .setDial (← nat 1) (← nat 2) (← int 3)
  | some "ratchet" => return .setRatchet (← nat 1) (← nat 2) (← int 3)
  | some "offset" => return .setOffset (← nat 1) (← nat 2) (← Word.int32? (← int 3))
  | some "bpm" => return .setBpm (← int 1)
  | some "mute" => return .toggleMute (← nat 1)
  | some "pattern" => return .setCurrent (← nat 1) ((int 2).bind byte?)
  | some "follow" => return .setChordFollow (← nat 1) ((← int 2) != 0)
  | some "snap" => return .saveSnapshot (← nat 1)
  | some "recall" => return .recallSnapshot (← nat 1)
  | some "copy" => return .copyPattern (← nat 1) (← nat 2) (← nat 3) (← nat 4)
  | some "transpose" => return .setTransposeStep (← nat 1) (← int 2) (int 3)
  | some "style" => return .setStyle (← Style.ofName? (← words[1]?))
  | some "knob" => return .nudgeGenerator (← nat 1) (← Word.int32? (← int 2))
  | some "gen" => return .generate (← nat 1)
  | _ => none

/-- The command that a line holds. -/
def parse? (line : String) : Option Command :=
  let words := Text.words line
  match words.head? with
  | some "quit" | some "q" => some quit
  | some "play" => some (play true)
  | some "stop" => some (play false)
  | some "save" => some save
  | some "set" => (nat? words 1).map openSet
  | _ => (edit? words).map edit

end Command

namespace Console

/-- Runs one command at a desk and says what came of it. -/
def perform (d : Desk) (now : Nat) : Command → List String × Desk
  | .edit e =>
    match d.apply e now with
    | (true, d) => ([], d)
    | (false, d) => (["nothing changed"], d)
  | .play on => ([], (d.setPlaying on now).2)
  | .openSet index =>
    match d.openSet index now with
    | (true, d) => (["set " ++ toString index], d)
    | (false, d) => ([], d)
  | .save => ([], (d.flush now).2)
  | .quit => ([], d)

/-- Runs one line at a desk, or says that it is not understood; then does what is due. -/
def line (d : Desk) (now : Nat) (text : String) : List String × Desk :=
  let (said, d) :=
    match Command.parse? text with
    | some c => perform d now c
    | none => (["? " ++ text], d)
  (said, (d.tick now).2)

/-- Opens a library at a set: an older library is carried over first, and the set is sent to the
engine. `shown` is the name of the library's folder. -/
def start (library : Library) (shown : String) (setIndex : Nat) (seed : UInt64) :
    List String × Desk :=
  let settings := Settings.load library
  let (carried, library) := library.migrate
  let said := match carried with
    | .ok (n + 1) => ["migrated " ++ toString (n + 1) ++ " sets from sets.json"]
    | _ => []
  let d := Desk.start library setIndex settings [] seed
  (said ++ ["set " ++ toString d.session.setIndex ++ " loaded from " ++ shown ++ " (" ++
    toString library.populated.length ++ " populated)"], d)

/-- Runs lines up to the first that quits, and saves what is not saved then. -/
def run (d : Desk) (now : Nat) : List String → List String × Desk
  | [] => ([], (d.flush now).2)
  | text :: rest =>
    if Command.parse? text = some .quit then ([], (d.flush now).2)
    else
      let (said, d) := line d now text
      let (more, d) := run d now rest
      (said ++ more, d)

/-! ## Starting from arguments -/

/-- What the library's folder is called: as the first argument says, or without one as the folder in
which the program runs. -/
def shownOf (here : String) (arguments : List String) : String :=
  arguments.head?.getD here

/-- The set that the second argument names; what is no number names the first set. -/
def setOf (arguments : List String) : Nat :=
  (arguments[1]?.bind (Text.nat? (Word.count64 - 1))).getD 0

/-- A desk that goes on with another library. -/
def withLibrary (d : Desk) (library : Library) : Desk :=
  { d with session.library := library }

/-- Runs lines at a desk whose library is empty, as it cannot be found before something is saved.
The first line that saves is run on the library `mended` instead, with all that follow; if none
does, the library stays as it is at `found`. No line is to quit. -/
def runUnfound (found mended : Library) (d : Desk) (now : Nat) :
    List String → List String × Desk
  | [] => run (withLibrary d (if d.session.dirty then mended else found)) now []
  | text :: rest =>
    let (said, after) := line d now text
    if after.session.library.disk.nodes.isEmpty then
      let (more, d) := runUnfound found mended after now rest
      (said ++ more, d)
    else run (withLibrary d mended) now (text :: rest)

/-- Runs the lines of a text on the disk below the folder called `here`: what is said, and the disk
afterwards. -/
def runText (disk : Disk) (here : String) (arguments : List String) (seed : UInt64)
    (input : String) : List String × Disk :=
  let lines := (Text.lines input).takeWhile fun text => Command.parse? text ≠ some .quit
  let serve (library : Library) (runLines : Desk → List String × Desk) : List String × Disk :=
    let (said, d) := start library (shownOf here arguments) (setOf arguments) seed
    let (more, d) := runLines d
    (said ++ more, d.session.library.disk)
  match disk.wayTo (arguments.head?.getD "") with
  | .clear root => serve { disk, root } fun d => run d 0 lines
  | .broken root mended =>
    serve { root } fun d => runUnfound { disk, root } { disk := mended, root } d 0 lines
  | .blocked => ((serve { disk := { readOnly := true } } fun d => run d 0 lines).1, disk)

end Console
end Groovebox
