import LiveScore.Numeric.Duration

/-!
# The click voice

The voice renders clicks into interleaved sample buffers. A click is a short sine tone that fades
out evenly; it lasts an eighth of a beat and never longer than thirty milliseconds. Clicks wait in
a queue until their time has come. The first buffer rendered after that starts the tone from its
first frame, even if an earlier click still sounds.

Samples are single-precision numbers; everything else in the voice is exact.
-/

namespace LiveScore

/-- A voice that sounds clicks. -/
structure ClickVoice where
  sampleRate : Nat
  length : Nat
  /-- The next frame of the click that sounds; none in silence. -/
  position : Option Nat := none
  /-- The times at which the waiting clicks are due. -/
  pending : List Nat := []
deriving DecidableEq, Inhabited

namespace ClickVoice

/-- The longest time that a click sounds. -/
def longestClick : Duration := .ofMilliseconds 30

/-- The greatest length in samples, to which a longer one is cut. -/
def greatestLength : Nat := 0xffffffffffffffff

/-- An eighth of the time of a beat at a tempo, where a tempo below 1 counts as 1. -/
def eighthOfBeat (bpm : Binary64) : Duration :=
  (Duration.ofSeconds? (60 / bpm.maximum 1 / 8)).getD ⟨0⟩

/-- The frames of a click at a tempo: at least one. -/
def lengthAt (sampleRate : Nat) (bpm : Binary64) : Nat :=
  let seconds := ((eighthOfBeat bpm).shorter longestClick).toSeconds
  max 1 ((seconds * Binary64.ofNat sampleRate).truncateTo greatestLength)

/-- Follows a tempo; a click that sounds keeps its place. -/
def setTempo (voice : ClickVoice) (bpm : Binary64) : ClickVoice :=
  { voice with length := lengthAt voice.sampleRate bpm }

/-- The tempo of a voice that has been told none. -/
def startTempo : Binary64 := 60

/-- A silent voice with the length of a click at the first tempo. -/
def ofSampleRate (sampleRate : Nat) : ClickVoice :=
  { sampleRate, length := lengthAt sampleRate startTempo }

/-- Puts a click into the queue, to sound from an instant on. -/
def trigger (voice : ClickVoice) (due : Nat) : ClickVoice :=
  { voice with pending := voice.pending ++ [due] }

/-- A click is under way. -/
def isSounding (voice : ClickVoice) : Bool := voice.position.isSome

/-- A number in single precision. -/
def single (n : Nat) : Float32 := n.toUInt64.toFloat32

/-- A full turn in radians. -/
def fullTurn : Float32 := 6.2831855

/-- The frequency of the click in Hertz. -/
def frequency : Float32 := 1000

/-- The sample of a click at one of its frames. -/
def sample (voice : ClickVoice) (frame : Nat) : Float32 :=
  let time := single frame / single voice.sampleRate
  let envelope := 1 - single frame / single voice.length
  (fullTurn * frequency * time).sin * envelope * 0.5

/-- Takes the clicks that are due off the queue; if there is one, the tone starts over. -/
def consume (voice : ClickVoice) (now : Nat) : ClickVoice :=
  let waiting := voice.pending.filter fun due => now < due
  { voice with
    pending := waiting
    position := if waiting.length < voice.pending.length then some 0 else voice.position }

/-- Adds a tone from the frame `position` on to a buffer whose frames have `channels + 1` samples.
The tone ends at the first frame beyond its length. -/
def mix (voice : ClickVoice) (channels position : Nat) (data : List Float32) :
    Option Nat × List Float32 :=
  match data with
  | [] => (some position, [])
  | first :: rest =>
    if voice.length ≤ position then (none, first :: rest)
    else
      let frame := (first :: rest.take channels).map (· + voice.sample position)
      let (reached, mixed) := voice.mix channels (position + 1) (rest.drop channels)
      (reached, frame ++ mixed)
termination_by data.length
decreasing_by
  show (rest.drop channels).length < rest.length + 1
  rw [List.length_drop]
  exact Nat.lt_succ_of_le (Nat.sub_le rest.length channels)

/-- Renders a buffer at a given time. Frames have at least one channel; the last one may be cut. -/
def render (voice : ClickVoice) (now : Nat) (data : List Float32) (channels : Nat) :
    ClickVoice × List Float32 :=
  let voice := voice.consume now
  match voice.position with
  | none => (voice, data)
  | some position =>
    let (reached, mixed) := voice.mix (channels - 1) position data
    ({ voice with position := reached }, mixed)

end ClickVoice

end LiveScore
