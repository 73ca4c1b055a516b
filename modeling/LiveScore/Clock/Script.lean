import LiveScore.Clock.Metronome

/-!
# Scripted handlers

A handler is called once per pulse and may itself act on the metronome that calls it. A script
tells for each call what the handler does; calls are counted from 0 over a whole run, restarts
included. After the last call with an action nothing can end the run any more, so playing a script
needs no more calls than that.

A restart makes a thread that calls the handler at once, while the call that has restarted goes on.
Playing a script follows one of the ways in which the threads may take turns: each call goes through
before the next one begins.
-/

namespace LiveScore

/-- Something that a handler does with the metronome that calls it. -/
inductive HandlerAction where
  | setTempo (bpm : Binary64)
  | observe
  | restart
  | stop
deriving DecidableEq

/-- What a handler has noted. -/
structure HandlerRecord where
  pulses : List Nat := []
  states : List Bool := []
  ended : Bool := false
deriving DecidableEq, Inhabited

/-- For each call in question an action; the actions of one call happen in order. -/
abbrev HandlerScript := List (Nat × HandlerAction)

namespace HandlerScript

/-- What the handler does in a call, in order. -/
def actionsAt (script : HandlerScript) (call : Nat) : List HandlerAction :=
  (script.filter fun entry => entry.1 = call).map Prod.snd

/-- The number of calls after which no action is left. -/
def callCount (script : HandlerScript) : Nat :=
  (script.map fun entry => entry.1 + 1).foldl max 0

/-- Performs one action. -/
def perform (metronome : Metronome) (record : HandlerRecord) :
    HandlerAction → Metronome × HandlerRecord
  | .setTempo bpm => (metronome.setTempo bpm, record)
  | .observe => (metronome, { record with states := record.states ++ [metronome.isRunning] })
  | .restart => (metronome.stop.start, record)
  | .stop => (metronome.stop, record)

/-- Performs actions in order. -/
def performAll (metronome : Metronome) (record : HandlerRecord) :
    List HandlerAction → Metronome × HandlerRecord
  | [] => (metronome, record)
  | action :: rest =>
    let (metronome, record) := perform metronome record action
    performAll metronome record rest

/-- Handles one call, which the run with the given index makes, and moves that run on. -/
def handleCall (script : HandlerScript) (call index : Nat) (metronome : Metronome)
    (record : HandlerRecord) : Metronome × HandlerRecord :=
  let pulse := (metronome.runs[index]?.map MetronomeRun.pulse).getD 0
  let noted := { record with pulses := record.pulses ++ [pulse] }
  let (metronome, record) := performAll metronome noted (script.actionsAt call)
  (metronome.advance index, record)

/-- Makes up to `remaining` calls, numbered from `call` on, as long as the recorded run delivers
pulses. -/
def playFrom (script : HandlerScript) :
    Nat → Nat → Metronome → HandlerRecord → Metronome × HandlerRecord
  | 0, _, metronome, record => (metronome, { record with ended := !metronome.isRunning })
  | remaining + 1, call, metronome, record =>
    match metronome.recorded with
    | none => (metronome, { record with ended := true })
    | some index =>
      if metronome.canPulse index then
        let (metronome, record) := handleCall script call index metronome record
        playFrom script remaining (call + 1) metronome record
      else (metronome, { record with ended := !metronome.isRunning })

/-- Starts a metronome with the scripted handler and plays until it stops or no action is left. -/
def play (script : HandlerScript) (metronome : Metronome) : Metronome × HandlerRecord :=
  playFrom script script.callCount 0 metronome.start {}

end HandlerScript

end LiveScore
