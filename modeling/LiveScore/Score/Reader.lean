import LiveScore.Score.Directive
import LiveScore.Score.Error
import LiveScore.Score.Measure

/-!
# Reading scores

Reading goes line by line over a draft that holds the section and the part in progress. A part is
kept if it has an instrument, and a section if it has a part; a kept section must have a new name.
The tempo carries over from section to section. Nothing outside the result changes, so a text that
is no score leaves the score that is playing alone.
-/

namespace LiveScore

/-- A score in the making. -/
structure Draft where
  sections : List Section := []
  chain : List String := []
  /-- The section in progress, without the part in progress. -/
  current : Section := {}
  part : Part := {}
  /-- The line at which the section in progress was named. -/
  currentLine : Nat := 0
  /-- The lines with a measure that belongs to no instrument. -/
  warnings : List Nat := []
deriving DecidableEq, Inhabited

namespace Draft

/-- Ends the part in progress. -/
def closePart (draft : Draft) : Draft :=
  { draft with
    part := {}
    current :=
      if draft.part.instruments = [] then draft.current
      else { draft.current with parts := draft.current.parts ++ [draft.part] } }

/-- Ends the section in progress, and with it the part in progress. -/
def closeSection (draft : Draft) : Except ScoreError Draft :=
  let closed := draft.closePart
  if closed.current.parts = [] then .ok closed
  else if closed.sections.any fun sect => sect.name = closed.current.name then
    .error (.duplicateSection closed.currentLine closed.current.name)
  else
    .ok { closed with
      sections := closed.sections ++ [closed.current.countMeasures]
      current := { tempo := closed.current.tempo } }

/-- Adds a measure to the part in progress, with a warning if nobody plays it. -/
def addMeasure (draft : Draft) (number : Nat) (measure : Measure) : Draft :=
  { draft with
    part := { draft.part with measures := draft.part.measures ++ [measure] }
    warnings :=
      if draft.part.instruments = [] then draft.warnings ++ [number] else draft.warnings }

/-- Applies what a line says. -/
def apply (resolver : Resolver) (draft : Draft) (number : Nat) :
    Directive → Except ScoreError Draft
  | .pattern name => do
    let closed ← draft.closeSection
    return { closed with current := { name, tempo := closed.current.tempo }, currentLine := number }
  | .instruments names => .ok { draft.closePart with part := { instruments := names } }
  | .legato percent => .ok { draft with part := { draft.part with legato := percent } }
  | .tempo bpm => .ok { draft with current := { draft.current with tempo := bpm } }
  | .chain names => .ok (if names = [] then draft else { draft with chain := names })
  | .measure tokens =>
    match Measure.ofTokens resolver draft.part.legato tokens with
    | .ok measure => .ok (draft.addMeasure number measure)
    | .error (token, cause) => .error (.unresolved number token cause)

/-- The error of a line by itself, with the number of the line. -/
def locate (number : Nat) : DirectiveError → ScoreError
  | .missingValue directive => .missingValue number directive
  | .invalidLegato value => .invalidLegato number value
  | .invalidTempo value => .invalidTempo number value

/-- Reads a line and applies it. -/
def step (resolver : Resolver) (draft : Draft) (number : Nat) (line : List Char) :
    Except ScoreError Draft :=
  match Directive.read line with
  | .ok directive => draft.apply resolver number directive
  | .error error => .error (locate number error)

/-- Turns the kept sections into a score. Without a chain they play in the order of the text. -/
def finish (draft : Draft) : Except ScoreError Score := do
  let closed ← draft.closeSection
  if closed.sections = [] then throw .noSections
  let index := SectionIndex.ofSections closed.sections
  let chain := if closed.chain = [] then closed.sections.map Section.name else closed.chain
  match chain.find? fun name => (index.lookup name).isNone with
  | some missing => throw (.undefinedChain missing)
  | none => return { sections := closed.sections, chain, index }

end Draft

/-- What reading a text gives. -/
structure Reading where
  outcome : Except ScoreError Score
  /-- The lines read so far with a measure that belongs to no instrument. -/
  warnings : List Nat

/-- Reads the lines that remain. -/
def Draft.read (resolver : Resolver) (draft : Draft) : List (Nat × List Char) → Reading
  | [] => ⟨draft.finish, draft.warnings⟩
  | (number, line) :: rest =>
    match draft.step resolver number line with
    | .ok next => next.read resolver rest
    | .error error => ⟨.error error, draft.warnings⟩

/-- Reads a score from its source. -/
def Score.read (resolver : Resolver) (source : String) : Reading :=
  Draft.read resolver {} (Directive.numberedLines source.toList)

end LiveScore
