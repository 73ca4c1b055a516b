import LiveScore.Pitch.Class

/-!
# Notes

A note is a pitch class in an octave. Octave numbers have a fixed range, and a shift that would
leave it stops at its end. The pitch of a note counts semitones so that the notes from 0 to 127
are those with a MIDI number.
-/

namespace LiveScore

/-- The number of an octave; octave 4 starts at middle C. -/
structure Octave where
  number : Int
  /-- Octaves start at -128. -/
  least_le : -128 ≤ number
  /-- Octaves end at 127. -/
  le_greatest : number ≤ 127
deriving DecidableEq

namespace Octave

/-- The octave with a given number, if there is one. -/
def ofInt? (number : Int) : Option Octave :=
  if h : -128 ≤ number ∧ number ≤ 127 then some ⟨number, h.1, h.2⟩ else none

/-- The octave nearest to a number. -/
def saturate (number : Int) : Octave :=
  ⟨max (-128) (min number 127), by omega, by omega⟩

instance : Inhabited Octave := ⟨saturate 0⟩

/-- The octave of middle C. -/
def middle : Octave := saturate 4

/-- How many octaves lead to a target, cut to what an octave may be. -/
def shiftTo (octave target : Octave) : Int :=
  (saturate (target.number - octave.number)).number

end Octave

/-- A pitch class in an octave. -/
structure Note where
  pitchClass : PitchClass
  /-- The octave in which it lies. -/
  octave : Octave
deriving DecidableEq, Inhabited

namespace Note

/-- Middle C, against which the first note of a cluster is placed when nothing precedes it. -/
def middleC : Note := ⟨.ofSemitones 0, .middle⟩

/-- The number of semitones above C in octave -1. -/
def pitch (note : Note) : Int := (note.octave.number + 1) * 12 + note.pitchClass.index

/-- The MIDI number of a note, if it has one. -/
def midi? (note : Note) : Option Nat :=
  if 0 ≤ note.pitch ∧ note.pitch ≤ 127 then some note.pitch.toNat else none

/-- The note that lies a number of semitones above C in octave -1. -/
def ofMidi (number : Nat) : Note :=
  ⟨.ofSemitones number, .saturate ((number / 12 : Nat) - 1)⟩

/-- Moves a note by octaves, and stops at the last octave there is. -/
def shiftOctaves (note : Note) (octaves : Int) : Note :=
  { note with octave := .saturate (note.octave.number + octaves) }

/-- Of two notes, the one closer to `reference`, and of two equally close ones the lower. -/
def closer (reference first second : Note) : Note :=
  let distance (note : Note) : Nat := (note.pitch - reference.pitch).natAbs
  if distance second < distance first ∨
      distance second = distance first ∧ second.pitch < first.pitch then second else first

/-- The note of a class that is closest to a reference note, ties going down. In the first and the
last octave, which lack a neighbour, the note stays in the octave of the reference. -/
def nearest (pitchClass : PitchClass) (reference : Note) : Note :=
  let beside (octaves : Int) : Note := shiftOctaves ⟨pitchClass, reference.octave⟩ octaves
  if reference.octave.number = -128 ∨ reference.octave.number = 127 then beside 0
  else closer reference (closer reference (beside (-1)) (beside 0)) (beside 1)

/-- The name of a note: its class, then its octave. -/
def name (note : Note) : String := note.pitchClass.name ++ toString note.octave.number

end Note

end LiveScore
