import LiveScore.Numeric.Duration

/-!
# The silent click track

Without a sound device the click track only keeps the tempo that it was told last.
-/

namespace LiveScore

/-- A click track without a sound. -/
structure SilentClick where
  /-- The tempo told last; zero before the first. -/
  tempo : Binary64 := 0
deriving DecidableEq, Inhabited

namespace SilentClick

/-- Takes over a tempo as it is told. -/
def setTempo (_click : SilentClick) (bpm : Binary64) : SilentClick := ⟨bpm⟩

/-- Starts at a tempo. There is nothing to sound, so only the tempo changes. -/
def start (click : SilentClick) (bpm : Binary64) : SilentClick := click.setTempo bpm

/-- Sounds a click, which nobody hears. -/
def trigger (click : SilentClick) (_latency : Duration) : SilentClick := click

end SilentClick

end LiveScore
