import LiveScore.Score.Grid

/-!
# Slots on the pulse grid

Whatever the double-precision positions of a cluster are, moving them into range and widening an
empty slot leaves a slot that starts before the last pulse, lasts at least one pulse and ends on
the grid. Nothing here depends on how a position is computed or rounded.
-/

namespace LiveScore.Slot

theorem toPulse_le {position : Binary64} {low high : Nat} (low_le_high : low ≤ high) :
    toPulse position low high ≤ high := by
  unfold toPulse
  omega

theorem start_lt_lastPulse (index count legato : Nat) :
    (place index count legato).start < lastPulse := by
  have bound : toPulse (startPosition index count) 0 (lastPulse - 1) ≤ lastPulse - 1 :=
    toPulse_le (Nat.zero_le _)
  have last_pos : 0 < lastPulse := by decide
  simp only [place]
  omega

theorem start_lt_stop (index count legato : Nat) :
    (place index count legato).start < (place index count legato).stop := by
  simp only [place]
  split <;> omega

theorem stop_le_lastPulse (index count legato : Nat) :
    (place index count legato).stop ≤ lastPulse := by
  have start_bound := start_lt_lastPulse index count legato
  have stop_bound : toPulse (stopPosition (startPosition index count) count legato) 1 lastPulse
      ≤ lastPulse := toPulse_le (by decide)
  simp only [place] at start_bound ⊢
  split <;> omega

end LiveScore.Slot
