import LiveScore.Clock.Tempo
import Mathlib.Algebra.Order.Ring.Rat

/-!
# Tempos in range

Moving a finite number into a range of finite numbers leaves a finite number in the range. The tempo
of a score is read as a finite number, so each tempo that a score asks for can be played.
-/

namespace LiveScore

namespace Binary64

theorem isFinite_iff {x : Binary64} : x.isFinite = true ↔ x = negativeZero ∨ ∃ q, x = finite q := by
  cases x <;> simp [isFinite, value?]

@[simp]
theorem lt_finite (p q : Rat) : (finite p).lt (finite q) = decide (p < q) := rfl

@[simp]
theorem lt_negativeZero_finite (q : Rat) : negativeZero.lt (finite q) = decide (0 < q) := rfl

@[simp]
theorem lt_finite_negativeZero (q : Rat) : (finite q).lt negativeZero = decide (q < 0) := rfl

/-- A range above zero has no place for the negative zero. -/
theorem clamp_finite {x : Binary64} {low high : Rat} (isFinite : x.isFinite = true)
    (low_pos : 0 < low) (ordered : low ≤ high) :
    ∃ value, x.clamp (finite low) (finite high) = finite value ∧ low ≤ value ∧ value ≤ high := by
  rcases isFinite_iff.mp isFinite with rfl | ⟨q, rfl⟩
  · refine ⟨low, ?_, le_refl low, ordered⟩
    simp [clamp, low_pos, not_lt.mpr ordered]
  · by_cases below : q < low
    · refine ⟨low, ?_, le_refl low, ordered⟩
      simp [clamp, below, not_lt.mpr ordered]
    · by_cases above : high < q
      · refine ⟨high, ?_, ordered, le_refl high⟩
        simp [clamp, below, above]
      · refine ⟨q, ?_, not_lt.mp below, not_lt.mp above⟩
        simp [clamp, below, above]

end Binary64

namespace Tempo

/-- A tempo of a section: zero, or a finite number of quarter notes per minute from 1 to 300. -/
def Allowed (bpm : Binary64) : Prop :=
  bpm = 0 ∨ ∃ value : Rat, bpm = .finite value ∧ 1 ≤ value ∧ value ≤ 300

theorem slowest_eq : slowest = .finite 1 := by decide +kernel

theorem fastest_eq : fastest = .finite 300 := by decide +kernel

theorem restrict_finite {bpm : Binary64} (isFinite : bpm.isFinite = true) :
    ∃ value : Rat, restrict bpm = .finite value ∧ 1 ≤ value ∧ value ≤ 300 := by
  rw [restrict, slowest_eq, fastest_eq]
  exact Binary64.clamp_finite isFinite (by decide) (by decide)

theorem zero_eq : (0 : Binary64) = .finite 0 := by decide +kernel

theorem restrict_ne_zero {bpm : Binary64} (isFinite : bpm.isFinite = true) :
    restrict bpm ≠ 0 := by
  rcases restrict_finite isFinite with ⟨value, restricted, atLeast, _⟩
  rw [restricted, zero_eq]
  intro same
  rw [Binary64.finite.inj same] at atLeast
  exact absurd atLeast (by decide)

end Tempo

end LiveScore
