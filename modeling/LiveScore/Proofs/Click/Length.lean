import LiveScore.Click.Voice
import LiveScore.Proofs.Numeric.Rounding

/-!
# The length of a click

Every tempo has an eighth of a beat, because it counts as one beat per minute at least; infinitely
many beats leave no time at all. A click is cut to thirty milliseconds before its frames are
counted. The count is rounded a few times on the way, but a sample rate is a machine word, and
thirty milliseconds of it stay a hundredth of a frame away from the next whole frame. So the
rounding never adds a frame.
-/

namespace LiveScore.ClickVoice

open Binary64

variable {sampleRate nanoseconds : Nat} {bpm : Binary64}

theorem one_eq : (1 : Binary64) = finite 1 :=
  (denotes_of_le_hundred (by decide : 1 ≤ 100)).eq.trans (by simp)

theorem maximum_one (bpm : Binary64) :
    bpm.maximum 1 = infinite false ∨ ∃ beats, 1 ≤ beats ∧ bpm.maximum 1 = finite beats := by
  rw [one_eq]
  cases bpm with
  | nan => exact Or.inr ⟨1, le_rfl, by simp [maximum]⟩
  | infinite negative =>
      cases negative with
      | true => exact Or.inr ⟨1, le_rfl, by simp [maximum, lt]⟩
      | false => exact Or.inl (by simp [maximum, lt])
  | negativeZero => exact Or.inr ⟨1, le_rfl, by simp [maximum, lt, value?]⟩
  | finite value =>
      right
      by_cases below : value < 1
      · exact ⟨1, le_rfl, by simp [maximum, lt, value?, below]⟩
      · exact ⟨value, not_lt.mp below, by simp [maximum, lt, value?, below]⟩

theorem exists_denotes_beat (bpm : Binary64) :
    ∃ seconds, Denotes (60 / bpm.maximum 1) seconds 7 := by
  have minute : Denotes (ofNat 60) 60 7 := denotes_of_le_hundred (by decide)
  rcases maximum_one bpm with endless | ⟨beats, one_le, beats_eq⟩
  · refine ⟨nearest 0, ?_⟩
    have none : Denotes (ofExact false 0) (nearest 0) 7 :=
      denotes_ofExact le_rfl (powerOfTwo_pos 7).le (by decide) (by decide)
    change Denotes (ofNat 60 / _) _ _
    rw [endless, minute.eq]
    exact none
  · have beats_pos : 0 < beats := zero_lt_one.trans_le one_le
    have told : Denotes (bpm.maximum 1) beats (binaryExponent beats + 1) :=
      ⟨beats_eq, beats_pos.le, (binaryExponent_spec beats_pos).2.le⟩
    exact ⟨_, minute.div told one_le (by decide) (by decide)⟩

/-- No tempo is without an eighth of a beat. -/
theorem exists_eighthOfBeat (bpm : Binary64) :
    ∃ eighth, Duration.ofSeconds? (60 / bpm.maximum 1 / 8) = some eighth ∧
      eighthOfBeat bpm = eighth := by
  rcases exists_denotes_beat bpm with ⟨seconds, beat⟩
  have eight : Denotes (ofNat 8) 8 7 := denotes_of_le_hundred (by decide)
  have eighth : Denotes (60 / bpm.maximum 1 / 8) (nearest (seconds / 8)) 7 :=
    beat.div eight (by norm_num) (by decide) (by decide)
  have found : Duration.ofSeconds? (60 / bpm.maximum 1 / 8) =
      some ⟨(nearestEven (nearest (seconds / 8) * 1000000000)).toNat⟩ := by
    rw [eighth.eq]
    simp [Duration.ofSeconds?, value?, not_lt.mpr eighth.nonneg, Duration.nanosecondsPerSecond]
  exact ⟨_, found, by rw [eighthOfBeat, found]; rfl⟩

/-- The seconds of a time below one second, as they are computed. Adding the whole seconds, of which
there are none, rounds once more. -/
def secondsOf (nanoseconds : Nat) : Rat := nearest (nearest (nanoseconds / 1000000000))

theorem denotes_toSeconds (nanoseconds_le : nanoseconds ≤ 30000000) :
    Denotes (Duration.toSeconds ⟨nanoseconds⟩) (secondsOf nanoseconds) 26 := by
  have bits {n : Nat} (n_le : n ≤ 30000000) : (n : Rat) ≤ powerOfTwo 25 := by
    rw [powerOfTwo_eq_zpow]
    norm_num
    exact_mod_cast n_le.trans (by norm_num)
  have small : (nanoseconds : Rat) < powerOfTwo 53 :=
    (bits nanoseconds_le).trans_lt (powerOfTwo_lt_iff.mpr (by decide))
  have whole : Denotes (ofNat 0) 0 25 := by
    simpa using denotes_ofNat (n := 0) (bits (by decide)) (by decide) (by decide)
  have rest : Denotes (ofNat nanoseconds) nanoseconds 25 := by
    simpa [nearest_natCast small] using denotes_ofNat (bits nanoseconds_le) (by decide) (by decide)
  have unit : Denotes (ofNat 1000000000) 1000000000 30 := by
    have unit_le : ((1000000000 : Nat) : Rat) ≤ powerOfTwo 30 := by
      rw [powerOfTwo_eq_zpow]
      norm_num
    have denotes := denotes_ofNat unit_le (by decide) (by decide)
    rw [nearest_natCast (unit_le.trans_lt (powerOfTwo_lt_iff.mpr (by decide)))] at denotes
    exact_mod_cast denotes
  have quotient := rest.div unit (by norm_num) (by decide) (by decide)
  have sum := whole.add quotient (by decide) (by decide)
  have noSecond : nanoseconds / 1000000000 = 0 := by omega
  have allRest : nanoseconds % 1000000000 = nanoseconds := by omega
  simpa [Duration.toSeconds, Duration.nanosecondsPerSecond, noSecond, allRest, secondsOf] using sum

theorem secondsOf_nonneg (nanoseconds : Nat) : 0 ≤ secondsOf nanoseconds :=
  nearest_nonneg (nearest_nonneg (by positivity))

theorem secondsOf_mono {more : Nat} (ordered : nanoseconds ≤ more) :
    secondsOf nanoseconds ≤ secondsOf more := by
  apply nearest_mono (nearest_nonneg (by positivity))
  apply nearest_mono (by positivity)
  apply div_le_div_of_nonneg_right _ (by norm_num)
  exact_mod_cast ordered

/-- The frames of the longest click, before they are cut to a whole number. -/
theorem near_frames (pos : 0 < sampleRate) :
    Near 3 (nearest (secondsOf 30000000 * sampleRate)) (30000000 / 1000000000 * sampleRate) := by
  have one_le : (1 : Rat) ≤ sampleRate := by exact_mod_cast pos
  have normal : leastNormal ≤ (30000000 : Nat) / 1000000000 := by
    have tiny := powerOfTwo_le_iff.mpr (by decide : (-1022 : Int) ≤ -6)
    refine tiny.trans ?_
    rw [powerOfTwo_eq_zpow]
    norm_num
  have seconds : Near 2 (secondsOf 30000000) (30000000 / 1000000000) := by
    have rounded := (near_nearest normal).rounded (leastNormal_le_nearest normal)
    exact_mod_cast rounded
  have frames := seconds.mul (Near.refl (zero_le_one.trans one_le))
  refine frames.rounded ((leastNormal_le_nearest (leastNormal_le_nearest normal)).trans ?_)
  exact le_mul_of_one_le_right (secondsOf_nonneg 30000000) one_le

/-- Three roundings do not bring the frames of thirty milliseconds to the next whole number. -/
theorem floor_frames_le (sampleRate_lt : sampleRate < 4294967296) :
    (nearest (secondsOf 30000000 * sampleRate)).floor.toNat ≤ sampleRate * 30 / 1000 := by
  rcases Nat.eq_zero_or_pos sampleRate with rfl | pos
  · have nothing : (0 : Rat).floor = 0 := rfl
    simp [nothing]
  · set frames := sampleRate * 30 / 1000 with frames_eq
    have nearly : (1 : Rat) - 1 / 10 ^ 12 ≤ remaining ^ 3 := by
      rw [remaining, powerOfTwo_eq_zpow]
      norm_num
    have near := near_frames pos
    have above := (mul_le_mul_of_nonneg_left nearly near.nonneg_left).trans near.above
    have whole : (3 : Rat) * sampleRate ≤ 100 * frames + 99 := by
      have whole : 3 * sampleRate ≤ 100 * frames + 99 := by omega
      exact_mod_cast whole
    have frames_le : (frames : Rat) ≤ 1000000000 := by
      have frames_le : frames ≤ 1000000000 := by omega
      exact_mod_cast frames_le
    have below : nearest (secondsOf 30000000 * sampleRate) < (frames + 1 : Int) := by
      push_cast
      linarith
    have floor_lt := Rat.floor_lt_iff.mpr below
    omega

/-- A click has one frame at least and otherwise lasts thirty milliseconds at most. -/
theorem lengthAt_le (sampleRate_lt : sampleRate < 4294967296) (bpm : Binary64) :
    lengthAt sampleRate bpm ≤ max 1 (sampleRate * 30 / 1000) := by
  set lasting := min (eighthOfBeat bpm).nanoseconds 30000000 with lasting_eq
  have lasting_le : lasting ≤ 30000000 := Nat.min_le_right _ _
  have rate : Denotes (ofNat sampleRate) sampleRate 32 := by
    have le : (sampleRate : Rat) ≤ powerOfTwo 32 := by
      rw [powerOfTwo_eq_zpow]
      exact_mod_cast sampleRate_lt.le
    have denotes := denotes_ofNat le (by decide) (by decide)
    rwa [nearest_natCast (le.trans_lt (powerOfTwo_lt_iff.mpr (by decide)))] at denotes
  have frames := (denotes_toSeconds lasting_le).mul rate (by decide) (by decide)
  have frames_le : nearest (secondsOf lasting * sampleRate) ≤
      nearest (secondsOf 30000000 * sampleRate) := by
    apply nearest_mono (mul_nonneg (secondsOf_nonneg lasting) sampleRate.cast_nonneg)
    exact mul_le_mul_of_nonneg_right (secondsOf_mono lasting_le) sampleRate.cast_nonneg
  have floor_le := Int.toNat_le_toNat (Rat.floor_monotone frames_le)
  have length_eq : lengthAt sampleRate bpm =
      max 1 (min (nearest (secondsOf lasting * sampleRate)).floor.toNat greatestLength) := by
    change max 1 ((Duration.toSeconds ⟨lasting⟩ * ofNat sampleRate).truncateTo greatestLength) = _
    rw [frames.eq]
    rfl
  rw [length_eq]
  have bound := floor_frames_le sampleRate_lt
  omega

end LiveScore.ClickVoice
