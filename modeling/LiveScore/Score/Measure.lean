import LiveScore.Numeric.Numeral
import LiveScore.Pitch.Resolver
import LiveScore.Score.Basic

/-!
# Measures from tokens

The tokens of a measure line share the measure evenly. A point is a rest: it takes its share and
adds nothing. A token that starts with a colon refers to a chord, with an optional octave for its
first note; any other token is a cluster, placed against the last note before it in the line. A
hyphen at the end holds the notes, so that nothing releases them.
-/

namespace LiveScore

/-- The notes of a token and whether they are held. -/
structure Voicing where
  notes : List Note
  /-- Held notes are not released. -/
  held : Bool
deriving DecidableEq

namespace Voicing

/-- Takes the mark of a held token off its end, and tells whether there was one. -/
def takeHold (text : List Char) : List Char × Bool :=
  if text.getLast? = some '-' then (text.dropLast, true) else (text, false)

/-- The name, the octave and the hold in the text after the colon of a chord reference. The hyphen
of a hold ends the reference: it follows the octave if there is one, and the name otherwise. -/
def splitReference (reference : List Char) : List Char × List Char × Bool :=
  match Text.splitFirst? (· == ':') reference with
  | some (name, octave) =>
    let (octave, held) := takeHold octave
    (name, octave, held)
  | none =>
    let (name, held) := takeHold reference
    (name, [], held)

/-- The octave shift that an octave field asks of a chord whose first note is `first`. -/
def readShift (reference : String) (first : Note) (octave : List Char) :
    Except ResolveError Int :=
  if octave = [] then .ok 0
  else match (Numeral.int? (-128) 127 octave).bind Octave.ofInt? with
    | some target => .ok (first.octave.shiftTo target)
    | none => .error (.outOfRange reference)

/-- Reads the text after the colon of a chord reference. -/
def readChord (resolver : Resolver) (reference : List Char) : Except ResolveError Voicing := do
  let (name, octave, held) := splitReference reference
  let tones ← resolver.chord (String.ofList name)
  let some first := tones.head? | throw (.unknownChord (String.ofList name))
  let shift ← readShift (String.ofList reference) first octave
  let notes := tones.map fun tone => tone.shiftOctaves shift
  if notes.any fun note => note.midi?.isNone then throw (.outOfRange (String.ofList reference))
  return ⟨notes, held⟩

/-- Reads a token that is no rest and follows the note `previous`. -/
def read (resolver : Resolver) (previous : Option Note) (token : List Char) :
    Except ResolveError Voicing :=
  match token with
  | ':' :: reference => readChord resolver reference
  | cluster => do
    let (cluster, held) := takeHold cluster
    let notes ← resolver.cluster (String.ofList cluster) previous
    return ⟨notes, held⟩

end Voicing

namespace Measure

/-- The token that sounds nothing. -/
def rest : String := "."

/-- The last note of the last chord of a measure. -/
def lastNote? (measure : Measure) : Option Note :=
  measure.chords.getLast?.bind fun chord => chord.notes.getLast?

/-- Adds a chord in its slot, with a release at the end of the slot unless it is held. -/
def add (measure : Measure) (slot : Slot) (voicing : Voicing) : Measure :=
  let struck := measure.timetable.schedule slot.start (.strike voicing.notes)
  { timetable :=
      if voicing.held then struck else struck.schedule slot.stop (.release voicing.notes)
    chords := measure.chords ++ [.strike voicing.notes] }

/-- Adds the tokens from `index` on to a measure of `count` tokens. A token that stands for no
notes is an error with that token. -/
def addTokens (resolver : Resolver) (legato count : Nat) :
    Nat → Measure → List String → Except (String × ResolveError) Measure
  | _, measure, [] => .ok measure
  | index, measure, token :: tokens =>
    if token = rest then addTokens resolver legato count (index + 1) measure tokens
    else match Voicing.read resolver measure.lastNote? token.toList with
      | .error cause => .error (token, cause)
      | .ok voicing =>
        addTokens resolver legato count (index + 1)
          (measure.add (Slot.place index count legato) voicing) tokens

/-- Reads the tokens of a line into a measure. A token that cannot be read is told with the
reason. -/
def ofTokens (resolver : Resolver) (legato : Nat) (tokens : List String) :
    Except (String × ResolveError) Measure :=
  addTokens resolver legato tokens.length 0 {} tokens

end Measure

end LiveScore
