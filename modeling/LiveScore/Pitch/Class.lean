import LiveScore.Text.Blank

/-!
# Pitch classes

The twelve pitch classes of the octave, counted in semitones from C. A name is a letter with at
most one accidental; sharps name the classes between the letters.
-/

namespace LiveScore

/-- A pitch class, given by its distance above C in semitones. -/
structure PitchClass where
  index : Fin 12
deriving DecidableEq, Inhabited

/-- A sign that alters a letter by a semitone, or the absence of one. -/
inductive Accidental where
  | natural
  | sharp
  | flat
deriving DecidableEq

namespace Accidental

/-- The number of semitones that the accidental adds. -/
def semitones : Accidental → Int
  | natural => 0
  | sharp => 1
  | flat => -1

/-- The accidental that a character stands for; only the lower-case letter is a flat. -/
def ofChar? : Char → Option Accidental
  | '#' => some sharp
  | 'b' => some flat
  | _ => none

/-- Takes an accidental from the front of a text, if one stands there. -/
def takeFirst : List Char → Accidental × List Char
  | [] => (natural, [])
  | c :: rest => match ofChar? c with
    | some accidental => (accidental, rest)
    | none => (natural, c :: rest)

end Accidental

namespace PitchClass

/-- The class at a distance in semitones from C, counted around the octave. -/
def ofSemitones (semitones : Int) : PitchClass :=
  ⟨⟨(semitones % 12).toNat, by omega⟩⟩

/-- The class of a letter from A to G, in either case. -/
def ofLetter? (letter : Char) : Option PitchClass :=
  match letter.toUpper with
  | 'C' => some ⟨0⟩
  | 'D' => some ⟨2⟩
  | 'E' => some ⟨4⟩
  | 'F' => some ⟨5⟩
  | 'G' => some ⟨7⟩
  | 'A' => some ⟨9⟩
  | 'B' => some ⟨11⟩
  | _ => none

/-- The class some semitones above, or below if they are negative. -/
def transpose (pitchClass : PitchClass) (semitones : Int) : PitchClass :=
  ofSemitones (pitchClass.index + semitones)

/-- The class with an accidental put to it. -/
def alter (pitchClass : PitchClass) (accidental : Accidental) : PitchClass :=
  pitchClass.transpose accidental.semitones

/-- Reads a letter with at most one accidental; blanks around it do not count. -/
def read? (text : List Char) : Option PitchClass :=
  match Text.trim text with
  | [] => none
  | letter :: rest => do
    let natural ← ofLetter? letter
    match Accidental.takeFirst rest with
    | (accidental, []) => some (natural.alter accidental)
    | _ => none

/-- The name of the class, with a sharp where it needs an accidental. -/
def name (pitchClass : PitchClass) : String :=
  match pitchClass.index with
  | 0 => "C"
  | 1 => "C#"
  | 2 => "D"
  | 3 => "D#"
  | 4 => "E"
  | 5 => "F"
  | 6 => "F#"
  | 7 => "G"
  | 8 => "G#"
  | 9 => "A"
  | 10 => "A#"
  | 11 => "B"

end PitchClass

end LiveScore
