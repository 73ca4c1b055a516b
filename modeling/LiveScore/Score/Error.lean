import LiveScore.Pitch.Error

/-!
# Errors in scores

The reasons why a text is no score. All but the last two point at a line, counted from 1.
-/

namespace LiveScore

/-- Why a text is no score. -/
inductive ScoreError where
  /-- The legato of the line is no integer. -/
  | invalidLegato (line : Nat) (value : String)
  /-- The tempo of the line is no finite number. -/
  | invalidTempo (line : Nat) (value : String)
  | missingValue (line : Nat) (directive : String)
  /-- A token of the line stands for no notes. -/
  | unresolved (line : Nat) (token : String) (cause : ResolveError)
  | duplicateSection (line : Nat) (name : String)
  /-- The chain has a name that no section has. -/
  | undefinedChain (name : String)
  /-- There is no section. -/
  | noSections
deriving DecidableEq

namespace ScoreError

/-- The sentence that reports the error. -/
def message : ScoreError → String
  | invalidLegato line value => s!"line {line}: problem parsing legato: {value}"
  | invalidTempo line value => s!"line {line}: problem parsing tempo: {value}"
  | missingValue line directive => s!"line {line}: '{directive}' needs a value"
  | unresolved line token cause => s!"line {line}: cannot resolve '{token}': {cause.message}"
  | duplicateSection line name => s!"line {line}: pattern '{name}' is already defined"
  | undefinedChain name => s!"no such chain: {name}"
  | noSections => "no sections found in score"

/-- The sentences of the error and of what caused it, outermost first. -/
def causes (error : ScoreError) : List String :=
  match error with
  | unresolved _ _ cause => [error.message, cause.message]
  | _ => [error.message]

end ScoreError

end LiveScore
