import LiveScore.Numeric.Binary64

/-!
# The pulse grid

A measure has four quarter notes of 24 pulses each. The clusters of a measure share it evenly: they
are spread over the distance to its last pulse, and each sounds for a percentage of its share, its
legato. Positions are computed in double precision and then rounded to whole pulses, so this file
fixes the order of the operations.
-/

namespace LiveScore

/-- Pulses in a quarter note. -/
def pulsesPerQuarter : Nat := 24

/-- Quarter notes in a measure. -/
def quartersPerMeasure : Nat := 4

/-- The pulses of a measure, numbered from 0. -/
def pulsesPerMeasure : Nat := pulsesPerQuarter * quartersPerMeasure

/-- The number of the last pulse of a measure. -/
def lastPulse : Nat := pulsesPerMeasure - 1

/-- The legato of a part that names none: each cluster fills its share. -/
def fullLegato : Nat := 100

/-- The pulses at which a cluster starts and ends. -/
structure Slot where
  /-- The pulse at which the notes are struck. -/
  start : Nat
  /-- The pulse at which they are released. -/
  stop : Nat
deriving DecidableEq

namespace Slot

/-- The position in the measure at which cluster `index` of `count` starts. -/
def startPosition (index count : Nat) : Binary64 :=
  Binary64.ofNat index / Binary64.ofNat (max count 1) * Binary64.ofNat lastPulse

/-- The position at which a cluster ends that starts at `start`. -/
def stopPosition (start : Binary64) (count legato : Nat) : Binary64 :=
  start + Binary64.ofNat (min legato fullLegato) / Binary64.ofNat fullLegato
    / Binary64.ofNat (max count 1) * Binary64.ofNat lastPulse

/-- The pulse nearest to a position, moved into a range. -/
def toPulse (position : Binary64) (low high : Nat) : Nat :=
  max low (min (position.roundHalfAway?.getD 0).toNat high)

/-- The slot of cluster `index` of `count` at a legato in percent. Every slot starts before the
last pulse, ends on the grid and lasts at least one pulse. -/
def place (index count legato : Nat) : Slot :=
  let position := startPosition index count
  let start := toPulse position 0 (lastPulse - 1)
  let stop := toPulse (stopPosition position count legato) 1 lastPulse
  ⟨start, if stop ≤ start then start + 1 else stop⟩

end Slot

end LiveScore
