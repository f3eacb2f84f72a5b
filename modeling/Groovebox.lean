import Groovebox.Arp
import Groovebox.Bank
import Groovebox.Binary64
import Groovebox.Chord
import Groovebox.Console
import Groovebox.Desk
import Groovebox.Disk
import Groovebox.Document
import Groovebox.Document.Numeral
import Groovebox.Document.Printer
import Groovebox.Document.Raw
import Groovebox.Edit
import Groovebox.Engine.Batch
import Groovebox.Engine.Call
import Groovebox.Engine.Export
import Groovebox.Engine.Link
import Groovebox.Engine.Param
import Groovebox.Generator.Audition
import Groovebox.Generator.Notes
import Groovebox.Generator.Params
import Groovebox.Generator.Slots
import Groovebox.Generator.Style
import Groovebox.Library
import Groovebox.Main
import Groovebox.Pattern
import Groovebox.Random
import Groovebox.Replacement
import Groovebox.Rhythm
import Groovebox.Rhythm.Levels
import Groovebox.Route
import Groovebox.SaveQueue
import Groovebox.Scale
import Groovebox.Session
import Groovebox.Settings
import Groovebox.Song
import Groovebox.Speed
import Groovebox.Step
import Groovebox.Stored.Field
import Groovebox.Stored.Reading
import Groovebox.Stored.Writing
import Groovebox.Table
import Groovebox.Text
import Groovebox.Track
import Groovebox.Transpose
import Groovebox.Trigger.Chance
import Groovebox.Trigger.Condition
import Groovebox.Trigger.Ratchet
import Groovebox.Trying
import Groovebox.Word
import Groovebox.Proofs.Bank
import Groovebox.Proofs.Trigger.Condition
import Groovebox.Proofs.WellFormed
import Groovebox.Proofs.Editing
import Groovebox.Proofs.Stored.Ranges
import Groovebox.Proofs.Stored.Fields
import Groovebox.Proofs.Stored.RoundTrip
import Groovebox.Proofs.Document.Parts
import Groovebox.Proofs.Document.Text
import Groovebox.Proofs.Stored.Text
import Groovebox.Proofs.Library
import Groovebox.Proofs.Library.Files
import Groovebox.Proofs.Library.Requests
import Groovebox.Proofs.Library.Legacy
import Groovebox.Proofs.Library.Resuming
import Groovebox.Proofs.Session
import Groovebox.Proofs.Session.Notes
import Groovebox.Proofs.Session.Timing
import Groovebox.Proofs.Session.Settled
import Groovebox.Proofs.Desk.Edits
import Groovebox.Proofs.Desk.Changes
import Groovebox.Proofs.Desk.Runs
import Groovebox.Proofs.Desk.Ranges
import Groovebox.Proofs.Desk.Timing
import Groovebox.Proofs.Engine.Keys
import Groovebox.Proofs.Engine.Packing
import Groovebox.Proofs.Engine.Batches
import Groovebox.Proofs.Engine.State
import Groovebox.Proofs.Engine.Orders
import Groovebox.Proofs.Engine.Agreement
import Groovebox.Proofs.Desk.Agreement
import Groovebox.Proofs.Desk.Refusals
import Groovebox.Proofs.Desk.Switching
import Groovebox.Proofs.Generator.Slots
import Groovebox.Proofs.Generator.Notes
import Groovebox.Proofs.Generator.Patterns
import Groovebox.Proofs.Stored.Containers
import Groovebox.Proofs.Stored.Shapes
import Groovebox.Proofs.Stored.Spellings
import Groovebox.Proofs.Chord
import Groovebox.Proofs.Stored.Jumps
import Groovebox.Proofs.Desk.Unsaved
import Groovebox.Proofs.Desk.Snapshots
import Groovebox.Proofs.Stored.Velocities
import Groovebox.Proofs.Rhythm.Evenness
import Groovebox.Proofs.Rhythm.Levels
import Groovebox.Proofs.Generator.Audition
import Groovebox.Proofs.Generator.Clusters
import Groovebox.Proofs.Generator.Ranks
import Groovebox.Proofs.Scale
import Groovebox.Proofs.Stored.Sparse
import Groovebox.Proofs.Stored.Damage
import Groovebox.Proofs.Engine.Steps
import Groovebox.Proofs.Chord.Pairs
import Groovebox.Proofs.Transpose.Removal
import Groovebox.Proofs.Transpose.Beats
import Groovebox.Proofs.Sorting
import Groovebox.Proofs.SaveQueue
import Groovebox.Proofs.Console
