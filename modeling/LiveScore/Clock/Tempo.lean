import LiveScore.Numeric.Duration
import LiveScore.Score.Grid

/-!
# Tempos

A tempo counts quarter notes per minute. Scores and the metronome move every tempo into one range,
in which each tempo has a time between pulses.
-/

namespace LiveScore.Tempo

/-- The slowest tempo that is accepted. -/
def slowest : Binary64 := 1

/-- The fastest tempo that is accepted. -/
def fastest : Binary64 := 300

/-- The tempo of a metronome that is given none. -/
def standard : Binary64 := 120

/-- Moves a tempo into the range. What is not a number stays as it is. -/
def restrict (bpm : Binary64) : Binary64 := bpm.clamp slowest fastest

/-- The time between two pulses at a tempo; there is none if the tempo is not a number. -/
def pulseInterval? (bpm : Binary64) : Option Duration :=
  Duration.ofSeconds? (60 / (restrict bpm * Binary64.ofNat pulsesPerQuarter))

end LiveScore.Tempo
