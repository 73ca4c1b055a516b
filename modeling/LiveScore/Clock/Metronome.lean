import LiveScore.Clock.Tempo

/-!
# The metronome

A metronome plays a run: pulse after pulse of the measure, from pulse 0, at the interval of its
tempo. Starting it makes a new run and records it; stopping it takes the recorded run and ends it.
The two sections `clear` and `spawn` are what a caller does without interruption, so several
callers interleave sections and not whole calls.

A run whose tempo has no interval cannot wait for its next pulse. It breaks down there, and the
metronome goes on to take it for a live one.
-/

namespace LiveScore

/-- One run of the metronome. -/
structure MetronomeRun where
  /-- The run has not been ended. -/
  live : Bool := true
  pulse : Nat := 0
  /-- The run could not wait for its next pulse. -/
  broken : Bool := false
deriving DecidableEq, Inhabited

/-- The state of a metronome. -/
structure Metronome where
  /-- The tempo, which takes effect from the next pulse on. -/
  tempo : Binary64
  runs : List MetronomeRun := []
  recorded : Option Nat := none
deriving DecidableEq, Inhabited

namespace Metronome

/-- A stopped metronome, with a tempo that is first moved into the range. -/
def ofTempo (bpm : Binary64) : Metronome := { tempo := Tempo.restrict bpm }

/-- A stopped metronome at the standard tempo. -/
def standard : Metronome := ofTempo Tempo.standard

/-- Tells a metronome a tempo, which is first moved into the range. -/
def setTempo (metronome : Metronome) (bpm : Binary64) : Metronome :=
  { metronome with tempo := Tempo.restrict bpm }

/-- The time from a pulse to the next, if the tempo has one. -/
def pulseInterval? (metronome : Metronome) : Option Duration :=
  Tempo.pulseInterval? metronome.tempo

/-- Changes the run with an index, if there is one. -/
def modifyRun (metronome : Metronome) (index : Nat) (change : MetronomeRun → MetronomeRun) :
    Metronome :=
  { metronome with runs := metronome.runs.modify index change }

/-- Takes the recorded run and ends it. -/
def clear (metronome : Metronome) : Metronome :=
  match metronome.recorded with
  | none => metronome
  | some index =>
    { metronome.modifyRun index (fun run => { run with live := false }) with recorded := none }

/-- Makes a new run at pulse 0 and records it, whatever was recorded before. -/
def spawn (metronome : Metronome) : Metronome :=
  { metronome with runs := metronome.runs ++ [{}], recorded := some metronome.runs.length }

/-- Stops the metronome, with no other caller in between. -/
def stop (metronome : Metronome) : Metronome := metronome.clear

/-- Starts the metronome, with no other caller in between. -/
def start (metronome : Metronome) : Metronome := metronome.stop.spawn

/-- Whether the recorded run is live. -/
def isRunning (metronome : Metronome) : Bool :=
  match metronome.recorded.bind fun index => metronome.runs[index]? with
  | some run => run.live
  | none => false

/-- Whether a run delivers a further pulse. -/
def canPulse (metronome : Metronome) (index : Nat) : Bool :=
  match metronome.runs[index]? with
  | some run => run.live && !run.broken
  | none => false

/-- Moves a run on after its pulse was handled: to the next pulse of the measure, and into a
breakdown if there is no time to wait. -/
def advance (metronome : Metronome) (index : Nat) : Metronome :=
  metronome.modifyRun index fun run =>
    { run with
      pulse := (run.pulse + 1) % pulsesPerMeasure
      broken := metronome.pulseInterval?.isNone }

/-- Moves a run on after its handler is done; a handler that breaks down takes the run with it. -/
def leave (metronome : Metronome) (index : Nat) (survived : Bool) : Metronome :=
  if survived then metronome.advance index
  else metronome.modifyRun index fun run => { run with broken := true }

end Metronome

end LiveScore
