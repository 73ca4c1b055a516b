import LiveScore.Numeric.Duration
import LiveScore.Player.Playback
import LiveScore.Score.Reader

/-!
# The player

The player keeps the playback and tells its devices what to do: a clock that calls for pulses, a
sink for notes and, if there is one, a click track. Each operation gives the new state and the
commands for the devices in order. A pulse changes the state before its first command is carried
out, so nothing that a device does can change where playback goes.
-/

namespace LiveScore

/-- What the player asks of a device. -/
inductive Command where
  /-- The clock starts calling for pulses, from pulse 0 on. -/
  | startClock
  | stopClock
  | setClockTempo (bpm : Binary64)
  | startClick (bpm : Binary64)
  | setClickTempo (bpm : Binary64)
  | click (latency : Duration)
  | deliver (pulse : Nat) (delivery : Delivery)
deriving DecidableEq

/-- The state of a player. -/
structure Player where
  resolver : Resolver := .standard
  /-- The delay of the click track, if there is one. -/
  clickLatency : Option Duration := none
  playback : Playback := {}

namespace Player

/-- The tempo at which the click track is started. -/
def clickReferenceTempo : Binary64 := 60

/-- What tells the clock and, if there is one, the click a tempo. -/
def tempoCommands (player : Player) (bpm : Binary64) : List Command :=
  .setClockTempo bpm :: if player.clickLatency.isSome then [.setClickTempo bpm] else []

/-- Tells a tempo if there is one to tell. -/
def requestCommands (player : Player) (request : Option Binary64) : List Command :=
  match request with
  | some bpm => player.tempoCommands bpm
  | none => []

/-- Starts playing from the top of the chain. -/
def start (player : Player) : Player × List Command :=
  let playback := player.playback.rewind
  ({ player with playback },
    (if player.clickLatency.isSome then [.startClick clickReferenceTempo] else [])
      ++ player.requestCommands playback.openingTempo ++ [.startClock])

/-- Stops the clock. The place in the score stays. -/
def stop (player : Player) : Player × List Command := (player, [.stopClock])

/-- Changes the tempo at once, until the score asks for another one. -/
def setTempo (player : Player) (bpm : Binary64) : Player × List Command :=
  (player, player.tempoCommands bpm)

/-- The click of a pulse: the click track sounds on every quarter note. -/
def clickCommands (player : Player) (pulse : Nat) : List Command :=
  match player.clickLatency with
  | some latency => if pulse % pulsesPerQuarter = 0 then [.click latency] else []
  | none => []

/-- Plays a pulse. The first pulse of a measure enters it; without a score nothing happens. -/
def pulse (player : Player) (pulse : Nat) : Player × List Command :=
  if player.playback.score.isEmpty then (player, [])
  else
    let playback := if pulse = 0 then player.playback.nextMeasure else player.playback
    let request := if pulse = 0 then player.playback.downbeatTempo else none
    ({ player with playback },
      player.requestCommands request ++ player.clickCommands pulse
        ++ (playback.deliveries pulse).map (.deliver pulse))

/-- Goes over to another score. -/
def load (player : Player) (score : Score) : Player :=
  { player with playback := player.playback.load score }

/-- Reads a text and, if it is a score, puts it in place. -/
def read (player : Player) (source : String) : Player × Reading :=
  let reading := Score.read player.resolver source
  match reading.outcome with
  | .ok score => (player.load score, reading)
  | .error _ => (player, reading)

/-- The place reached, if a score is loaded. -/
def position? (player : Player) : Option Position := player.playback.position?

end Player

end LiveScore
