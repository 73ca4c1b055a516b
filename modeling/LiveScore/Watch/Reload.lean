import LiveScore.Files.Folder
import LiveScore.Text.Quoted

/-!
# Reloading a changed score

A score file that changes is read again, but only after it has been left alone for a while, so that
a burst of changes causes one reload. The watch runs in rounds. In each it hears of one thing that
happened in the score's folder, or that nothing did, and then looks whether the time has come.

News of another file end the round early: the look at the time waits for the next round.
-/

namespace LiveScore

/-- What can happen to a file. -/
inductive FileChange where
  | created
  | modified
  | removed
  | other
deriving DecidableEq

/-- What a watch hears of in a round. -/
inductive News where
  | score (change : FileChange)
  | otherFile
  | quiet
deriving DecidableEq

/-- A round of a watch: what it hears of, when, and what the file system answers then. -/
structure WatchRound where
  news : News
  time : Nat
  present : Bool
  contents : Except ReadError String

/-- What a watch tells about the score. -/
inductive ScoreChange where
  | modified (source : String)
  | removed
  | unreadable (cause : ReadError)
deriving DecidableEq

/-- What is said of a score that could not be read. -/
def ScoreChange.unreadableMessage (path : String) (cause : ReadError) : String :=
  s!"Failed to read {Text.quotedPath path}: {cause.message}"

/-- The state of a watch. -/
structure Watch where
  /-- The milliseconds for which the score must be left alone. -/
  patience : Nat
  /-- When the score changed last, if it has not been read since. -/
  changed : Option Nat := none
deriving DecidableEq

namespace Watch

/-- What a reading of the score file comes to. -/
def report : Except ReadError String → ScoreChange
  | .ok source => .modified source
  | .error cause => .unreadable cause

/-- Looks whether the score has been left alone for long enough since it changed. -/
def look (watch : Watch) (round : WatchRound) : Watch × Option ScoreChange :=
  match watch.changed with
  | some changed =>
    if watch.patience ≤ round.time - changed then
      ({ watch with changed := none }, some (report round.contents))
    else (watch, none)
  | none => (watch, none)

/-- A round: takes note of what is heard, and looks at the time unless it was about another file. A
score that is removed and still exists has been replaced. -/
def step (watch : Watch) (round : WatchRound) : Watch × Option ScoreChange :=
  match round.news with
  | .otherFile => (watch, none)
  | .score .created | .score .modified => { watch with changed := some round.time }.look round
  | .score .removed =>
    if round.present then watch.look round
    else ({ watch with changed := none }, some .removed)
  | .score .other | .quiet => watch.look round

/-- Rounds one after the other, with what each of them tells. -/
def run (watch : Watch) : List WatchRound → Watch × List (Option ScoreChange)
  | [] => (watch, [])
  | round :: rest =>
    let (watch, told) := watch.step round
    let (watch, later) := watch.run rest
    (watch, told :: later)

end Watch

end LiveScore
