import LiveScore.Midi.Message
import LiveScore.Player.Playback
import LiveScore.Text.Lower

/-!
# Outputs

An output sink connects to every MIDI output and sends each instrument to the output that its name
finds: the output of that very name, or else the first one whose name contains it, case disregarded.
It remembers every note that it was asked to send, so that it can end them all on every output.

The connections are kept by name in a table that has no order of its own. Whatever goes through all
of them therefore takes the order of the names in which the table happens to be gone through.

What the outputs do is given by a backend, which may refuse clients and connections and whose
connections may fail after some messages.
-/

namespace LiveScore

/-- An output of a backend. -/
structure MidiOutput where
  name : String
  named : Bool := true
  refuses : Bool := false
  /-- Whether only the first client sees the output. -/
  vanishes : Bool := false
  /-- The number of messages that a connection takes before it fails, if it fails. -/
  failsAfter : Option Nat := none
deriving DecidableEq, Inhabited

/-- What a system offers in the way of outputs. -/
structure MidiBackend where
  /-- The outputs, in the order in which they are listed. -/
  outputs : List MidiOutput := []
  /-- The number of clients that can be created, if there is a limit. -/
  clientLimit : Option Nat := none
  clients : Nat := 0
deriving DecidableEq, Inhabited

/-- Why an output cannot be used. -/
inductive OutputError where
  /-- The backend gives no client. -/
  | noClient (reason : String)
  /-- A listed output is no longer there. -/
  | disappeared (output : String)
  /-- An output takes no connection. -/
  | refused (output reason : String)
  /-- A message did not get through. -/
  | sendFailed (output reason : String)
  /-- No output goes by the name of the instrument. -/
  | noDevice (instrument : String)
deriving DecidableEq

/-- The sentence that reports the error. -/
def OutputError.message : OutputError → String
  | noClient reason => s!"Failed to create MIDI client: {reason}"
  | disappeared output => s!"MIDI port disappeared: '{output}'"
  | refused output reason => s!"could not get output from: '{output}': {reason}"
  | sendFailed output reason => s!"send to '{output}' failed: {reason}"
  | noDevice instrument => s!"no such device: {instrument}"

namespace MidiBackend

/-- Creates a client. -/
def createClient (backend : MidiBackend) : Except OutputError MidiBackend :=
  match backend.clientLimit with
  | some limit =>
    if limit ≤ backend.clients then .error (.noClient "no client")
    else .ok { backend with clients := backend.clients + 1 }
  | none => .ok { backend with clients := backend.clients + 1 }

/-- The outputs that a client finds now. Some are there only for the first client. -/
def visibleOutputs (backend : MidiBackend) : List MidiOutput :=
  backend.outputs.filter fun output => !output.vanishes || backend.clients ≤ 1

/-- Asks a new client for the names of all outputs that it finds, and that tell theirs. -/
def outputNames (backend : MidiBackend) : Except OutputError (MidiBackend × List String) := do
  let backend ← backend.createClient
  return (backend, (backend.visibleOutputs.filter MidiOutput.named).map MidiOutput.name)

end MidiBackend

/-- Why a connection to an output does not take a message, by the number of attempts before. -/
def MidiOutput.refusal? (output : MidiOutput) (attempt : Nat) : Option String :=
  output.failsAfter.bind fun limit => if limit ≤ attempt then some "port gone" else none

/-- A connection to an output. -/
structure OutputConnection where
  name : String
  /-- Why an attempt to send a message fails, if it fails, by the number of attempts before. -/
  refusal? : Nat → Option String := fun _ => none
  attempts : Nat := 0
  /-- The messages that got through. -/
  sent : List MidiMessage := []
deriving Inhabited

namespace OutputConnection

/-- Sends one message. -/
def send (connection : OutputConnection) (message : MidiMessage) :
    OutputConnection × Option OutputError :=
  let tried := { connection with attempts := connection.attempts + 1 }
  match connection.refusal? connection.attempts with
  | some reason => (tried, some (.sendFailed connection.name reason))
  | none => ({ tried with sent := connection.sent ++ [message] }, none)

/-- Sends messages in order until one fails. -/
def sendAll (connection : OutputConnection) :
    List MidiMessage → OutputConnection × Option OutputError
  | [] => (connection, none)
  | message :: rest =>
    match connection.send message with
    | (connection, none) => connection.sendAll rest
    | (connection, some error) => (connection, some error)

end OutputConnection

/-- A sink that plays on outputs. -/
structure OutputSink where
  /-- The connections, each output name once. -/
  connections : List OutputConnection := []
  /-- The numbers of all notes that were to be sent so far, in ascending order. -/
  encountered : List Nat := []
  velocity : Nat := MidiMessage.standardVelocity
deriving Inhabited

namespace OutputSink

/-- Outputs with this in their names are not connected. -/
def shunned : String := "Microsoft"

/-- Connects to an output by name. The connection replaces an earlier one to the same name. -/
def connect (sink : OutputSink) (backend : MidiBackend) (name : String) :
    Except OutputError (OutputSink × MidiBackend) := do
  let backend ← backend.createClient
  let some output := backend.visibleOutputs.find? fun output => output.named && output.name = name
    | throw (.disappeared name)
  if output.refuses then throw (.refused name "refused")
  let connection : OutputConnection := { name, refusal? := output.refusal? }
  let connections :=
    if sink.connections.any fun known => known.name = name then
      sink.connections.map fun known => if known.name = name then connection else known
    else sink.connections ++ [connection]
  return ({ sink with connections }, backend)

/-- Connects to outputs in order. -/
def connectAll (sink : OutputSink) (backend : MidiBackend) :
    List String → Except OutputError (OutputSink × MidiBackend)
  | [] => .ok (sink, backend)
  | name :: rest => do
    let (sink, backend) ← sink.connect backend name
    sink.connectAll backend rest

/-- Connects to every output that is not shunned. -/
def openAll (backend : MidiBackend) (velocity : Nat) : Except OutputError OutputSink := do
  let (backend, names) ← backend.outputNames
  let wanted := names.filter fun name => !Text.occursIn shunned.toList name.toList
  let (sink, _) ← ({ velocity } : OutputSink).connectAll backend wanted
  return sink

/-- The names of the connected outputs, in the order in which they were connected. -/
def outputNames (sink : OutputSink) : List String := sink.connections.map OutputConnection.name

/-- The output that the name of an instrument finds among names in some order. -/
def findOutput? (names : List String) (instrument : String) : Option String :=
  if names.contains instrument then some instrument
  else names.find? fun name =>
    Text.occursIn (Text.lower instrument).toList (Text.lower name).toList

/-- Adds a note to an ascending list without repetitions. -/
def remember (note : Nat) : List Nat → List Nat
  | [] => [note]
  | other :: rest =>
    if note < other then note :: other :: rest
    else if note = other then other :: rest
    else other :: remember note rest

/-- Sends messages on the connection of a name. -/
def sendOn (name : String) (messages : List MidiMessage) :
    List OutputConnection → List OutputConnection × Option OutputError
  | [] => ([], none)
  | connection :: rest =>
    if connection.name = name then
      let (connection, error) := connection.sendAll messages
      (connection :: rest, error)
    else
      let (rest, error) := sendOn name messages rest
      (connection :: rest, error)

/-- Plays notes on the output of an instrument. The notes count as played even if sending fails. -/
def deliver (sink : OutputSink) (order : List String) (delivery : Delivery) :
    OutputSink × Except OutputError Unit :=
  if delivery.event.notes = [] then (sink, .ok ())
  else match findOutput? order delivery.instrument with
    | none => (sink, .error (.noDevice delivery.instrument))
    | some name =>
      let messages := MidiMessage.ofChord delivery.event 0 sink.velocity
      let encountered := messages.foldl (fun notes message => remember message.note notes)
        sink.encountered
      let (connections, error) := sendOn name messages sink.connections
      ({ sink with connections, encountered }, match error with
        | some error => .error error
        | none => .ok ())

/-- Sends messages on the connections of names in order, up to the first that fails. -/
def sendEverywhere (messages : List MidiMessage) :
    List String → List OutputConnection → List OutputConnection × Option OutputError
  | [], connections => (connections, none)
  | name :: rest, connections =>
    match sendOn name messages connections with
    | (connections, some error) => (connections, some error)
    | (connections, none) => sendEverywhere messages rest connections

/-- The messages that end every note ever played. -/
def silencing (sink : OutputSink) : List MidiMessage :=
  MidiMessage.ofChord (.release (sink.encountered.map Note.ofMidi)) 0 sink.velocity

/-- Ends every note ever played, on every output, going through the outputs in some order. -/
def allNotesOff (sink : OutputSink) (order : List String) : OutputSink × Except OutputError Unit :=
  let (connections, error) := sendEverywhere sink.silencing order sink.connections
  ({ sink with connections }, match error with
    | some error => .error error
    | none => .ok ())

/-- Gives the sink up: ends every note, and reports in the log if that fails. -/
def close (sink : OutputSink) (order : List String) : OutputSink × Option String :=
  match sink.allNotesOff order with
  | (sink, .ok ()) => (sink, none)
  | (sink, .error error) => (sink, some ("failed to silence MIDI ports: " ++ error.message))

end OutputSink

end LiveScore
