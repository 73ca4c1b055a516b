import LiveScore.Harmony.Quality
import LiveScore.Pitch.Error
import LiveScore.Pitch.Note

/-!
# Chord symbols

A chord symbol is a root, the suffix of a quality and, after a slash, an optional bass. The root
is voiced in octave 4 and the chord tones lie above it. A bass that is a chord tone inverts the
chord; any other bass goes underneath.
-/

namespace LiveScore.Harmony

/-- The octave in which roots are voiced. -/
def rootOctave : Octave := .middle

/-- A chord symbol taken apart. -/
structure Symbol where
  root : PitchClass
  quality : Quality
  bass : Option PitchClass
deriving DecidableEq

namespace Symbol

/-- The root at the front of a symbol and the suffix after it. -/
def takeRoot? : List Char → Option (PitchClass × List Char)
  | [] => none
  | letter :: rest => (PitchClass.ofLetter? letter).map fun natural =>
    let (accidental, suffix) := Accidental.takeFirst rest
    (natural.alter accidental, suffix)

/-- Reads the part of a symbol before its slash. -/
def readChord? (text : List Char) : Option (PitchClass × Quality) := do
  let (root, suffix) ← takeRoot? (Text.trim text)
  let quality ← Quality.ofSuffix? (String.ofList suffix)
  return (root, quality)

/-- Reads a chord symbol, whose bass starts after the first slash. -/
def read? (name : List Char) : Option Symbol :=
  match Text.splitFirst? (· == '/') name with
  | some (chord, bass) => do
    let bass ← PitchClass.read? bass
    let (root, quality) ← readChord? chord
    return ⟨root, quality, some bass⟩
  | none => do
    let (root, quality) ← readChord? name
    return ⟨root, quality, none⟩

/-- The root in the octave in which chords are built. -/
def rootNote (symbol : Symbol) : Note := ⟨symbol.root, rootOctave⟩

/-- The notes of a chord in root position, from the root upward. -/
def tones (symbol : Symbol) : List Note :=
  symbol.quality.intervals.map fun interval =>
    Note.ofMidi (symbol.rootNote.pitch.toNat + interval)

/-- The bass at its nearest place below the root. -/
def bassBelow (root : Note) (bass : PitchClass) : Note :=
  let below := Note.nearest bass root
  if root.pitch ≤ below.pitch then below.shiftOctaves (-1) else below

/-- Turns a chord so that the tone at `position` comes first; those before it move up an octave. -/
def invert (tones : List Note) (position : Nat) : List Note :=
  tones.drop position ++ (tones.take position).map fun tone => tone.shiftOctaves 1

/-- The notes of a symbol, with the bass first. -/
def notes (symbol : Symbol) : List Note :=
  match symbol.bass with
  | none => symbol.tones
  | some bass => match symbol.tones.findIdx? fun tone => tone.pitchClass = bass with
    | some position => invert symbol.tones position
    | none => bassBelow symbol.rootNote bass :: symbol.tones

end Symbol

/-- The notes that a chord symbol stands for. -/
def read (name : String) : Except ResolveError (List Note) :=
  match Symbol.read? name.toList with
  | some symbol => .ok symbol.notes
  | none => .error (.unknownChord name)

end LiveScore.Harmony
