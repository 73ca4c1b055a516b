import LiveScore.Proofs.Pitch.Range

/-!
# The nearest note

Twelve neighbouring pitches hold one note of each class. A note that is placed beside a reference
lies among the twelve from six semitones below the reference to five above it: where two notes of
the class are equally close, they are six semitones away on either side, and the lower one is taken.

The octaves on either side of the reference must have a number for this. They do if the reference
is in range.
-/

namespace LiveScore

namespace Octave

/-- The octaves below and above have a number. -/
def Inner (octave : Octave) : Prop := -128 < octave.number ∧ octave.number < 127

theorem ofInt?_eq_some_iff {octave : Octave} {number : Int} :
    ofInt? number = some octave ↔ octave.number = number := by
  constructor
  · intro found
    simp only [ofInt?] at found
    split at found <;> cases found
    rfl
  · rintro rfl
    exact dif_pos ⟨octave.least_le, octave.le_greatest⟩

theorem ofInt?_eq_none_of_lt {number : Int} (large : 127 < number) : ofInt? number = none := by
  apply dif_neg
  omega

end Octave

namespace Note

variable {note other reference first second : Note} {pitchClass : PitchClass}

/-- The note lies among the twelve pitches around the reference, six of them below it. -/
def Beside (reference note : Note) : Prop :=
  reference.pitch - 6 ≤ note.pitch ∧ note.pitch ≤ reference.pitch + 5

theorem InRange.inner (inRange : note.InRange) : note.octave.Inner := by
  have bounds := inRange_iff.mp inRange
  simp only [pitch] at bounds
  simp only [Octave.Inner]
  omega

theorem pitch_shiftOctaves {octaves : Int} (least_le : -128 ≤ note.octave.number + octaves)
    (le_greatest : note.octave.number + octaves ≤ 127) :
    (note.shiftOctaves octaves).pitch = note.pitch + 12 * octaves := by
  simp only [shiftOctaves, pitch, Octave.saturate]
  omega

/-- Two notes of a class that are less than an octave apart are the same. -/
theorem eq_of_pitchClass_eq (sameClass : note.pitchClass = other.pitchClass)
    (close : (note.pitch - other.pitch).natAbs < 12) : note = other := by
  apply pitch_injective
  simp only [pitch, sameClass] at close ⊢
  omega

theorem Beside.eq (sameClass : note.pitchClass = other.pitchClass)
    (beside : reference.Beside note) (otherBeside : reference.Beside other) : note = other := by
  simp only [Beside] at beside otherBeside
  apply eq_of_pitchClass_eq sameClass
  omega

theorem closer_eq_first (near : reference.pitch ≤ first.pitch + 6)
    (apart : first.pitch + 12 ≤ second.pitch) : closer reference first second = first := by
  simp only [closer]
  apply if_neg
  omega

theorem closer_eq_second (far : first.pitch + 6 < reference.pitch)
    (apart : second.pitch = first.pitch + 12) : closer reference first second = second := by
  simp only [closer]
  apply if_pos
  omega

theorem pitchClass_closer (sameClass : first.pitchClass = second.pitchClass) :
    (closer reference first second).pitchClass = first.pitchClass := by
  simp only [closer]
  split
  · exact sameClass.symm
  · rfl

theorem pitchClass_nearest (pitchClass : PitchClass) (reference : Note) :
    (nearest pitchClass reference).pitchClass = pitchClass := by
  simp only [nearest]
  split
  · rfl
  · simp [pitchClass_closer, shiftOctaves]

theorem beside_nearest (pitchClass : PitchClass) (inner : reference.octave.Inner) :
    reference.Beside (nearest pitchClass reference) := by
  simp only [Octave.Inner] at inner
  have notEdge : ¬(reference.octave.number = -128 ∨ reference.octave.number = 127) := by
    omega
  simp only [nearest, if_neg notEdge]
  -- The candidates are an octave apart, and the middle one is less than an octave away.
  generalize same_eq : (⟨pitchClass, reference.octave⟩ : Note) = same
  have sameNumber : same.octave.number = reference.octave.number := by
    simp [← same_eq]
  have below : (same.shiftOctaves (-1)).pitch = same.pitch + 12 * (-1) := by
    apply pitch_shiftOctaves <;> omega
  have level : (same.shiftOctaves 0).pitch = same.pitch + 12 * 0 := by
    apply pitch_shiftOctaves <;> omega
  have above : (same.shiftOctaves 1).pitch = same.pitch + 12 * 1 := by
    apply pitch_shiftOctaves <;> omega
  have close : (same.pitch - reference.pitch).natAbs < 12 := by
    simp only [pitch]
    omega
  by_cases low : reference.pitch ≤ same.pitch - 6
  · have lower : closer reference (same.shiftOctaves (-1)) (same.shiftOctaves 0) =
        same.shiftOctaves (-1) := closer_eq_first (by omega) (by omega)
    rw [lower, closer_eq_first (by omega) (by omega)]
    simp only [Beside]
    omega
  · have upper : closer reference (same.shiftOctaves (-1)) (same.shiftOctaves 0) =
        same.shiftOctaves 0 := closer_eq_second (by omega) (by omega)
    rw [upper]
    by_cases high : reference.pitch ≤ same.pitch + 6
    · rw [closer_eq_first (by omega) (by omega)]
      simp only [Beside]
      omega
    · rw [closer_eq_second (by omega) (by omega)]
      simp only [Beside]
      omega

theorem eq_nearest_iff (inner : reference.octave.Inner) :
    note = nearest pitchClass reference ↔
      note.pitchClass = pitchClass ∧ reference.Beside note := by
  constructor
  · rintro rfl
    exact ⟨pitchClass_nearest pitchClass reference, beside_nearest pitchClass inner⟩
  · rintro ⟨rfl, beside⟩
    exact beside.eq (pitchClass_nearest note.pitchClass reference).symm
      (beside_nearest note.pitchClass inner)

end Note

end LiveScore
