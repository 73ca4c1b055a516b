import LiveScore.Numeric.Binary64
import LiveScore.Pitch.Note
import LiveScore.Score.Grid

/-!
# Scores

A score has named sections and a chain of names that puts them in playing order. The parts of a
section play together, each a list of measures for a group of instruments; a shorter part repeats.
A measure is a timetable of chords to strike and to release, beside the chords as written.
-/

namespace LiveScore

/-- Notes that start or stop together. -/
structure ChordEvent where
  /-- Struck if true, released if false. -/
  on : Bool
  notes : List Note
deriving DecidableEq, Inhabited

namespace ChordEvent

/-- Notes begin. -/
def strike (notes : List Note) : ChordEvent := ⟨true, notes⟩

/-- Notes end. -/
def release (notes : List Note) : ChordEvent := ⟨false, notes⟩

/-- All notes that begin, or all that end, in order. -/
def notesOf (on : Bool) (batch : List ChordEvent) : List Note :=
  (batch.filter fun event => event.on = on).flatMap ChordEvent.notes

/-- What ends, and then what begins, each in one event. -/
def merge (batch : List ChordEvent) : List ChordEvent :=
  [release (notesOf false batch), strike (notesOf true batch)]

end ChordEvent

/-- The events of a measure: the pulses with events in ascending order, each with its batch. -/
abbrev Timetable := List (Nat × List ChordEvent)

namespace Timetable

/-- The batch at a pulse, if there is one. -/
def at? (timetable : Timetable) (pulse : Nat) : Option (List ChordEvent) := timetable.lookup pulse

/-- Adds an event after those that the pulse already has. -/
def schedule (pulse : Nat) (event : ChordEvent) : Timetable → Timetable
  | [] => [(pulse, [event])]
  | (other, batch) :: rest =>
    if pulse < other then (pulse, [event]) :: (other, batch) :: rest
    else if pulse = other then (other, batch ++ [event]) :: rest
    else (other, batch) :: schedule pulse event rest

end Timetable

/-- A measure of a part. -/
structure Measure where
  timetable : Timetable := []
  /-- The chords in the order in which they are written. -/
  chords : List ChordEvent := []
deriving DecidableEq, Inhabited

/-- The measures that a group of instruments plays. -/
structure Part where
  instruments : List String := []
  measures : List Measure := []
  /-- The percentage of its share of a measure for which a cluster sounds. -/
  legato : Nat := fullLegato
deriving DecidableEq, Inhabited

/-- The measure of a part that is played in a measure of its section. A part that is shorter than
its section starts over. -/
def Part.measureFor? (part : Part) (sectionMeasure : Nat) : Option Measure :=
  part.measures[sectionMeasure % part.measures.length]?

/-- A named group of parts that play together. -/
structure Section where
  /-- The name by which the chain refers to the section. -/
  name : String := ""
  /-- The parts in the order in which they are written. -/
  parts : List Part := []
  /-- The length in measures, which stays zero until the section is complete. -/
  measureCount : Nat := 0
  /-- The tempo in quarter notes per minute; zero leaves the tempo as it is. -/
  tempo : Binary64 := 0
deriving DecidableEq, Inhabited

/-- Makes a section as long as its longest part. -/
def Section.countMeasures (sect : Section) : Section :=
  { sect with
    measureCount := (sect.parts.map fun part => part.measures.length).max?.getD 0 }

/-- The places of sections by their names, each name once. -/
abbrev SectionIndex := List (String × Nat)

namespace SectionIndex

/-- Sets the place of a name, instead of the one it had before. -/
def assign (name : String) (place : Nat) : SectionIndex → SectionIndex
  | [] => [(name, place)]
  | (other, old) :: rest =>
    if other = name then (name, place) :: rest else (other, old) :: assign name place rest

/-- The places of some sections. -/
def ofSections (sections : List Section) : SectionIndex :=
  sections.zipIdx.foldl (fun index entry => assign entry.1.name entry.2 index) []

end SectionIndex

/-- A score. -/
structure Score where
  /-- The sections in the order in which they are written. -/
  sections : List Section := []
  /-- The names of the sections in playing order; a name may occur repeatedly. -/
  chain : List String := []
  /-- The places of the sections by their names. -/
  index : SectionIndex := []
deriving DecidableEq, Inhabited

namespace Score

/-- A score without sections. -/
def isEmpty (score : Score) : Bool := score.sections.isEmpty

/-- The place of the section of a name, as the index has it. -/
def indexOf? (score : Score) (name : String) : Option Nat := score.index.lookup name

/-- The section of a name. -/
def section? (score : Score) (name : String) : Option Section := do
  score.sections[← score.indexOf? name]?

/-- The name at a position of the chain, which starts over after its end. -/
def nameAt? (score : Score) (position : Nat) : Option String :=
  score.chain[position % score.chain.length]?

/-- The section at a position of the chain, with its index. -/
def sectionAt? (score : Score) (position : Nat) : Option (Nat × Section) := do
  let index ← score.indexOf? (← score.nameAt? position)
  let sect ← score.sections[index]?
  return (index, sect)

end Score

end LiveScore
