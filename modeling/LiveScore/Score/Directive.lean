import LiveScore.Clock.Tempo
import LiveScore.Numeric.Decimal
import LiveScore.Numeric.Numeral
import LiveScore.Text.Blank

/-!
# The lines of a score

A line counts once it is trimmed. A blank line and a line that starts with a number sign say
nothing; of the others, the first word tells whether the line is a directive, and a line that is
none is a measure. Reading a line by itself finds the errors that lie in its own value.
-/

namespace LiveScore

/-- Why a line by itself is malformed. -/
inductive DirectiveError where
  | missingValue (directive : String)
  /-- The legato is no integer. -/
  | invalidLegato (value : String)
  /-- The tempo is no finite number. -/
  | invalidTempo (value : String)
deriving DecidableEq

/-- What a line of a score says. -/
inductive Directive where
  | pattern (name : String)
  | instruments (names : List String)
  | legato (percent : Nat)
  | tempo (bpm : Binary64)
  | chain (names : List String)
  | measure (tokens : List String)
deriving DecidableEq

namespace Directive

/-- The least legato that can be told. -/
def leastLegato : Int := -0x8000000000000000

/-- The greatest legato that can be told. -/
def greatestLegato : Int := 0x7fffffffffffffff

/-- The first word of a line and the trimmed text after it. -/
def split (line : List Char) : List Char × List Char :=
  match Text.splitFirst? Text.isBlank line with
  | some (keyword, rest) => (keyword, Text.trim rest)
  | none => (line, [])

/-- The first word after a directive, which needs one. -/
def value (directive : String) (rest : List Char) : Except DirectiveError (List Char) :=
  match Text.words rest with
  | [] => .error (.missingValue directive)
  | first :: _ => .ok first

/-- The legato that a directive sets, moved into the range of percentages. -/
def readLegato (rest : List Char) : Except DirectiveError Directive := do
  let word ← value "legato" rest
  match Numeral.int? leastLegato greatestLegato word with
  | some percent => return .legato (min percent.toNat fullLegato)
  | none => throw (.invalidLegato (String.ofList word))

/-- The tempo that a directive sets, moved into the range of tempos. -/
def readTempo (rest : List Char) : Except DirectiveError Directive := do
  let word ← value "tempo" rest
  match (Decimal.read? word).filter Binary64.isFinite with
  | some bpm => return .tempo (Tempo.restrict bpm)
  | none => throw (.invalidTempo (String.ofList word))

/-- The names in a list with commas between them, trimmed and without the empty ones. -/
def readInstruments (rest : List Char) : List String :=
  (((Text.splitAt ',' rest).map Text.trim).filter (· ≠ [])).map String.ofList

/-- Reads a trimmed line that says something. -/
def read (line : List Char) : Except DirectiveError Directive :=
  let (keyword, rest) := split line
  match String.ofList keyword with
  | "pattern" => .ok (.pattern (String.ofList rest))
  | "legato" => readLegato rest
  | "tempo" => readTempo rest
  | "chain" => .ok (.chain ((Text.words rest).map String.ofList))
  | "instruments" => .ok (.instruments (readInstruments rest))
  | "instrument" => .ok (.instruments (readInstruments rest))
  | _ => .ok (.measure ((Text.words line).map String.ofList))

/-- A trimmed line that says nothing: an empty one or a comment. -/
def isSilent (line : List Char) : Bool :=
  match line with
  | [] => true
  | first :: _ => first = '#'

/-- The lines that say something, without the blanks around them, each with its number in the
source. -/
def numberedLines (source : List Char) : List (Nat × List Char) :=
  (((Text.lines source).map Text.trim).zipIdx 1).filterMap fun (line, number) =>
    if isSilent line then none else some (number, line)

end Directive

end LiveScore
