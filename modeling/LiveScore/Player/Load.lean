import LiveScore.Files.Folder
import LiveScore.Player.Basic
import LiveScore.Text.Quoted

/-!
# Loading score files

A score file is read whole and then taken as a score. Either step may fail, and the error names the
file above what caused it.
-/

namespace LiveScore

/-- Why a file did not become the score. -/
inductive LoadError where
  /-- The file could not be read. -/
  | unreadable (path : String) (cause : ReadError)
  /-- The text is no score. -/
  | rejected (path : String) (cause : ScoreError)
deriving DecidableEq

namespace LoadError

/-- What is said of a score that could not be loaded. -/
def message : LoadError → String
  | unreadable path _ => "Failed to read score file: " ++ Text.quotedPath path
  | rejected path _ => "Failed to parse score file: " ++ Text.quotedPath path

/-- The sentences of the error and of its causes, outermost first. -/
def causes (error : LoadError) : List String :=
  error.message :: match error with
    | unreadable _ cause => [cause.message]
    | rejected _ cause => cause.causes

end LoadError

/-- The result of loading a file, with the warnings about its text. -/
structure Loading where
  outcome : Except LoadError Unit
  /-- The lines with a measure that belongs to no instrument. -/
  warnings : List Nat := []

/-- Takes what reading a file gave as the new score. -/
def Player.loadFile (player : Player) (path : String) (contents : Except ReadError String) :
    Player × Loading :=
  match contents with
  | .error cause => (player, ⟨.error (.unreadable path cause), []⟩)
  | .ok source =>
    let (player, reading) := player.read source
    match reading.outcome with
    | .ok _ => (player, ⟨.ok (), reading.warnings⟩)
    | .error cause => (player, ⟨.error (.rejected path cause), reading.warnings⟩)

end LiveScore
