import LiveScore.Numeric.Numeral
import LiveScore.Pitch.Error
import LiveScore.Pitch.Note

/-!
# Note clusters

A cluster is a run of notes spelt without separators. A spelling is cut off greedily: a letter, an
accidental if one follows at once, and then all digits that follow. A spelling with digits names
its octave; one without is placed as close as possible to the note before it.
-/

namespace LiveScore.Cluster

/-- The notation of one note in a cluster. -/
structure Spelling where
  letter : Char
  accidental : Accidental
  /-- The digits of the octave; none if the note is placed by its neighbour. -/
  digits : List Char
deriving DecidableEq

/-- Takes the accidental and the octave digits behind a letter. -/
def takeSpelling (letter : Char) (rest : List Char) : Spelling × List Char :=
  let (accidental, rest) := Accidental.takeFirst rest
  (⟨letter, accidental, rest.takeWhile Numeral.isDigit⟩, rest.dropWhile Numeral.isDigit)

/-- Taking an accidental never makes a text longer. -/
theorem length_takeFirst_le (text : List Char) :
    (Accidental.takeFirst text).2.length ≤ text.length := by
  unfold Accidental.takeFirst
  split
  · simp
  · split <;> simp

/-- Taking a spelling never makes the text after its letter longer. -/
theorem length_takeSpelling_le (letter : Char) (rest : List Char) :
    (takeSpelling letter rest).2.length ≤ rest.length := by
  have accidentalShortens := length_takeFirst_le rest
  have digitsShorten :=
    (List.dropWhile_sublist Numeral.isDigit (l := (Accidental.takeFirst rest).2)).length_le
  simp only [takeSpelling]
  omega

/-- Cuts a token into its spellings. -/
def spellings : List Char → List Spelling
  | [] => []
  | letter :: rest => (takeSpelling letter rest).1 :: spellings (takeSpelling letter rest).2
termination_by text => text.length
decreasing_by
  have shortens := length_takeSpelling_le letter rest
  simp only [List.length_cons]
  omega

/-- The note that a spelling stands for after the note `previous`. -/
def Spelling.note (token : String) (previous : Note) (spelling : Spelling) :
    Except ResolveError Note := do
  let some natural := PitchClass.ofLetter? spelling.letter
    | throw (.invalidNote spelling.letter token)
  let pitchClass := natural.alter spelling.accidental
  let note ←
    if spelling.digits = [] then pure (Note.nearest pitchClass previous)
    else match Octave.ofInt? (Numeral.ofDigits spelling.digits) with
      | some octave => pure ⟨pitchClass, octave⟩
      | none => throw (.outOfRange token)
  if note.midi?.isNone then throw (.outOfRange token)
  return note

/-- The notes of a run of spellings, each placed after the one before it. -/
def place (token : String) (previous : Note) : List Spelling → Except ResolveError (List Note)
  | [] => .ok []
  | spelling :: rest => do
    let note ← spelling.note token previous
    let following ← place token note rest
    return note :: following

/-- Reads a cluster that follows the note `reference`, or middle C. -/
def read (token : String) (reference : Option Note) : Except ResolveError (List Note) :=
  match spellings token.toList with
  | [] => .error .emptyCluster
  | first :: rest => place token (reference.getD .middleC) (first :: rest)

end LiveScore.Cluster
