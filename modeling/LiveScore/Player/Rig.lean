import LiveScore.Player.Load

/-!
# A player on its devices

A rig connects a player with a clock that only keeps what it is told, a sink that answers each
delivery as it likes, and a click track. It carries out the commands of the player one by one and
notes what happens. A sink that fails is reported and the pulse goes on; a sink that breaks down
ends the commands of the pulse, while the state that the pulse had reached stays.
-/

namespace LiveScore

/-- How a sink answers a delivery. -/
inductive SinkAnswer where
  | accepted
  | failed (causes : List String)
  | panicked
deriving DecidableEq

/-- A sink: its answer to each delivery, which may depend on how many came before. -/
structure Sink where
  answer : Nat → Delivery → SinkAnswer

/-- A sink that takes everything. -/
def Sink.accepting : Sink := ⟨fun _ _ => .accepted⟩

/-- What a rig notes. -/
inductive Event where
  | performed (command : Command)
  | deliveryFailed (instrument : String) (causes : List String)
  /-- A line of a score holds a measure that belongs to no instrument. -/
  | measureIgnored (line : Nat)
deriving DecidableEq

/-- A clock that does what it is told and calls for no pulses of its own. -/
structure ManualClock where
  tempo : Binary64 := 0
  /-- Whether it was started and not stopped since. -/
  running : Bool := false
  /-- Whether it was ever started, so that it knows whom to call. -/
  connected : Bool := false
deriving DecidableEq

/-- Takes a command; those for other devices leave the clock alone. -/
def ManualClock.take (clock : ManualClock) : Command → ManualClock
  | .startClock => { clock with running := true, connected := true }
  | .stopClock => { clock with running := false }
  | .setClockTempo bpm => { clock with tempo := bpm }
  | _ => clock

/-- A player on its devices. -/
structure Rig where
  player : Player := {}
  sink : Sink := .accepting
  clock : ManualClock := {}
  delivered : Nat := 0

/-- How an operation ended. -/
inductive OperationResult where
  | done
  /-- The text is no score. -/
  | rejected (error : ScoreError)
  /-- The file did not become the score. -/
  | notLoaded (error : LoadError)
  | noHandler
  | panicked
deriving DecidableEq

/-- Something done with a rig. -/
inductive Operation where
  | read (source : String)
  | loadFile (path : String) (contents : Except ReadError String)
  | start
  | stop
  | setTempo (bpm : Binary64)
  | pulses (numbers : List Nat)
  | tick (pulse : Nat)
  /-- Gives the player up, which stops its clock; the clock still knows whom to call. -/
  | drop

namespace Rig

/-- The events of a command, and whether the sink survived it. -/
def perform (rig : Rig) (command : Command) : Rig × List Event × Bool :=
  let rig := { rig with clock := rig.clock.take command }
  match command with
  | .deliver _ delivery =>
    let answer := rig.sink.answer rig.delivered delivery
    let rig := { rig with delivered := rig.delivered + 1 }
    match answer with
    | .accepted => (rig, [.performed command], true)
    | .failed causes =>
      (rig, [.performed command, .deliveryFailed delivery.instrument causes], true)
    | .panicked => (rig, [.performed command], false)
  | _ => (rig, [.performed command], true)

/-- Carries out commands in order until the sink breaks down. -/
def performAll (rig : Rig) : List Command → Rig × List Event × Bool
  | [] => (rig, [], true)
  | command :: rest =>
    let (rig, events, survived) := rig.perform command
    if survived then
      let (rig, later, survived) := rig.performAll rest
      (rig, events ++ later, survived)
    else (rig, events, false)

/-- Goes over to a changed player and performs its commands, up to one at which the sink panics.

A pulse changes cursor and tempo before its first delivery, and whoever takes the lock after a panic
finds the state as it was left. So the changed player stands here from the beginning, and the lock
does not appear. -/
def follow (rig : Rig) (change : Player × List Command) : Rig × List Event × Bool :=
  { rig with player := change.1 }.performAll change.2

/-- Plays pulses in order until the sink breaks down. -/
def playPulses (rig : Rig) : List Nat → Rig × List Event × Bool
  | [] => (rig, [], true)
  | pulse :: rest =>
    let (rig, events, survived) := rig.follow (rig.player.pulse pulse)
    if survived then
      let (rig, later, survived) := rig.playPulses rest
      (rig, events ++ later, survived)
    else (rig, events, false)

/-- The result of an operation that can only end by the sink. -/
def resultOf (survived : Bool) : OperationResult := if survived then .done else .panicked

/-- Does something with a rig. -/
def run (rig : Rig) : Operation → Rig × List Event × OperationResult
  | .read source =>
    let (player, reading) := rig.player.read source
    let events := reading.warnings.map Event.measureIgnored
    let result := match reading.outcome with
      | .ok _ => OperationResult.done
      | .error error => .rejected error
    ({ rig with player }, events, result)
  | .loadFile path contents =>
    let (player, loading) := rig.player.loadFile path contents
    let events := loading.warnings.map Event.measureIgnored
    let result := match loading.outcome with
      | .ok _ => OperationResult.done
      | .error error => .notLoaded error
    ({ rig with player }, events, result)
  | .start =>
    let (rig, events, survived) := rig.follow rig.player.start
    (rig, events, resultOf survived)
  | .stop =>
    let (rig, events, survived) := rig.follow rig.player.stop
    (rig, events, resultOf survived)
  | .setTempo bpm =>
    let (rig, events, survived) := rig.follow (rig.player.setTempo bpm)
    (rig, events, resultOf survived)
  | .pulses numbers =>
    let (rig, events, survived) := rig.playPulses numbers
    (rig, events, resultOf survived)
  | .tick pulse =>
    if rig.clock.connected then
      let (rig, events, survived) := rig.playPulses [pulse]
      (rig, events, resultOf survived)
    else (rig, [], .noHandler)
  | .drop =>
    let (rig, events, survived) := rig.follow rig.player.stop
    (rig, events, resultOf survived)

end Rig

end LiveScore
