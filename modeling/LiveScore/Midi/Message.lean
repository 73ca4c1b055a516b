import LiveScore.Score.Basic

/-!
# MIDI messages

A chord becomes one message of three bytes per note: a status that tells the kind of message and
the channel, the number of the note, and the velocity. Notes without a number are left out, and
each byte keeps the bits that belong to it.
-/

namespace LiveScore

/-- A message that starts or ends a note. -/
structure MidiMessage where
  status : Nat
  note : Nat
  velocity : Nat
deriving DecidableEq

namespace MidiMessage

/-- The status of a note-off on the first channel. -/
def noteOff : Nat := 0x80

/-- The status of a note-on on the first channel. -/
def noteOn : Nat := 0x90

/-- The velocity of settings that name none. -/
def standardVelocity : Nat := 100

/-- What is sent of a message, in order. -/
def bytes (message : MidiMessage) : List Nat := [message.status, message.note, message.velocity]

/-- The messages of a chord: one for each of its notes that has a number, in order. -/
def ofChord (event : ChordEvent) (channel velocity : Nat) : List MidiMessage :=
  let status := (if event.on then noteOn else noteOff) + channel % 16
  (event.notes.filterMap Note.midi?).map fun note => ⟨status, note % 128, velocity % 128⟩

end MidiMessage

end LiveScore
