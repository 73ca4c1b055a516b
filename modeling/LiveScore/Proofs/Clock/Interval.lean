import LiveScore.Clock.Script
import LiveScore.Proofs.Clock.Tempo
import LiveScore.Proofs.Numeric.Rounding

/-!
# The time between two pulses

Every number, the infinite ones included, is moved to a finite tempo between the slowest and the
fastest one, and each such tempo has a time between pulses: the formula rounds twice, which moves
the time by far less than a nanosecond. What is not a number compares with nothing, so moving it
into a range leaves it as it is, and it has no time between pulses. A metronome that is told such a
tempo has none until it is told a number, and a run that needs the time meanwhile breaks down.

A run looks at the tempo when its handler is done with a pulse, so what counts for the next pulse is
the tempo told last in the calls so far.
-/

namespace LiveScore

namespace Tempo

open Binary64

variable {bpm : Binary64} {value : Rat}

theorem restrict_nan : restrict .nan = .nan := by
  rw [restrict, slowest_eq, fastest_eq]
  rfl

theorem restrict_of_ne_nan (number : bpm ≠ .nan) :
    ∃ value : Rat, restrict bpm = .finite value ∧ 1 ≤ value ∧ value ≤ 300 := by
  cases bpm with
  | nan => exact absurd rfl number
  | infinite negative =>
      rw [restrict, slowest_eq, fastest_eq]
      cases negative with
      | true => exact ⟨1, rfl, le_refl 1, by decide⟩
      | false => exact ⟨300, rfl, by decide, le_refl 300⟩
  | negativeZero => exact restrict_finite rfl
  | finite value => exact restrict_finite rfl

theorem restrict_of_mem (one_le : 1 ≤ value) (le : value ≤ 300) :
    restrict (.finite value) = .finite value := by
  rw [restrict, slowest_eq, fastest_eq]
  simp [clamp, not_lt.mpr one_le, not_lt.mpr le]

/-- The time between two pulses in seconds, as it is computed. -/
def secondsAt (value : Rat) : Rat := nearest (60 / nearest (value * 24))

theorem denotes_secondsAt (one_le : 1 ≤ value) (le : value ≤ 300) :
    Denotes (ofNat 60 / (.finite value * ofNat pulsesPerQuarter)) (secondsAt value) 7 := by
  have le_power : value ≤ powerOfTwo 9 := by
    refine le.trans ?_
    rw [powerOfTwo_eq_zpow]
    norm_num
  have tempo : Denotes (.finite value) value 9 := ⟨rfl, zero_le_one.trans one_le, le_power⟩
  have pulses : Denotes (ofNat pulsesPerQuarter) 24 7 := denotes_of_le_hundred (by decide)
  have minute : Denotes (ofNat 60) 60 7 := denotes_of_le_hundred (by decide)
  have perMinute := tempo.mul pulses (by decide) (by decide)
  have one_le_perMinute : 1 ≤ nearest (value * 24) := by
    rw [← powerOfTwo_zero]
    refine powerOfTwo_le_nearest (by decide) ?_
    rw [powerOfTwo_zero]
    linarith
  exact minute.div perMinute one_le_perMinute (by decide) (by decide)

/-- The product and the quotient round once each. -/
theorem near_secondsAt (one_le : 1 ≤ value) (le : value ≤ 300) :
    Near 2 (secondsAt value) (60 / (value * 24)) := by
  have product_pos : 0 < value * 24 := by linarith
  have product : Near 1 (nearest (value * 24)) (value * 24) :=
    near_nearest (leastNormal_le_one.trans (by linarith))
  have quotient := (Near.refl (by norm_num : (0 : Rat) ≤ 60)).div product product_pos
  have normal : leastNormal ≤ 60 / nearest (value * 24) := by
    have rounded_le : nearest (value * 24) ≤ powerOfTwo 13 := by
      refine nearest_le_powerOfTwo (by decide) product_pos.le ?_
      rw [powerOfTwo_eq_zpow]
      norm_num
      linarith
    have rounded_pos : 0 < nearest (value * 24) :=
      leastNormal_pos.trans_le (leastNormal_le_nearest (leastNormal_le_one.trans (by linarith)))
    rw [le_div_iff₀ rounded_pos]
    calc
      leastNormal * nearest (value * 24) ≤ powerOfTwo (-1022) * powerOfTwo 13 :=
        mul_le_mul_of_nonneg_left rounded_le leastNormal_pos.le
      _ = powerOfTwo (-1009) := (powerOfTwo_add _ _).symm
      _ ≤ 60 := by
        refine (powerOfTwo_le_iff.mpr (by decide : (-1009 : Int) ≤ 0)).trans ?_
        rw [powerOfTwo_zero]
        norm_num
  exact (quotient.rounded normal).mono (by decide)

theorem nanoseconds_secondsAt (one_le : 1 ≤ value) (le : value ≤ 300) :
    8333333 ≤ nearestEven (secondsAt value * 1000000000) ∧
      nearestEven (secondsAt value * 1000000000) ≤ 2500000000 := by
  have near := near_secondsAt one_le le
  have product_pos : 0 < value * 24 := by linarith
  have least : 1 / 120 ≤ 60 / (value * 24) := by
    rw [le_div_iff₀ product_pos]
    linarith
  have greatest : 60 / (value * 24) ≤ 5 / 2 := by
    rw [div_le_iff₀ product_pos]
    linarith
  -- What two roundings may take away comes to a few attoseconds here.
  have nearly : (1 : Rat) - 1 / 10 ^ 12 ≤ remaining ^ 2 := by
    rw [remaining, powerOfTwo_eq_zpow]
    norm_num
  have below := (mul_le_mul_of_nonneg_left nearly near.nonneg).trans near.below
  have above := (mul_le_mul_of_nonneg_left nearly near.nonneg_left).trans near.above
  have rounding := abs_le.mp (abs_nearestEven_sub_le (secondsAt value * 1000000000))
  constructor
  · have reached : (8333332 : Rat) < nearestEven (secondsAt value * 1000000000) := by
      norm_num at below
      linarith [rounding.1]
    have reached' : (8333332 : Int) < nearestEven (secondsAt value * 1000000000) := by
      exact_mod_cast reached
    omega
  · have reached : (nearestEven (secondsAt value * 1000000000) : Rat) < 2500000001 := by
      norm_num at above
      linarith [rounding.2]
    have reached' : nearestEven (secondsAt value * 1000000000) < 2500000001 := by
      exact_mod_cast reached
    omega

/-- Every tempo in the range has a time between pulses, which lies between those of the fastest and
of the slowest tempo. -/
theorem pulseInterval?_of_mem (one_le : 1 ≤ value) (le : value ≤ 300) :
    ∃ interval, pulseInterval? (.finite value) = some interval ∧
      8333333 ≤ interval.nanoseconds ∧ interval.nanoseconds ≤ 2500000000 := by
  have seconds := denotes_secondsAt one_le le
  have bounds := nanoseconds_secondsAt one_le le
  refine ⟨⟨(nearestEven (secondsAt value * 1000000000)).toNat⟩, ?_, ?_, ?_⟩
  · rw [pulseInterval?, restrict_of_mem one_le le]
    change Duration.ofSeconds? (ofNat 60 / _) = _
    rw [seconds.eq]
    simp [Duration.ofSeconds?, value?, not_lt.mpr seconds.nonneg, Duration.nanosecondsPerSecond]
  · simp only
    omega
  · simp only
    omega

theorem pulseInterval?_nan : pulseInterval? .nan = none := by
  have minute : Denotes (ofNat 60) 60 7 := denotes_of_le_hundred (by decide)
  rw [pulseInterval?, restrict_nan]
  change Duration.ofSeconds? (ofNat 60 / _) = none
  rw [minute.eq]
  rfl

end Tempo

namespace Metronome

/-- The metronome has a tempo in the range, and a time between pulses that belongs to one. -/
structure Playable (metronome : Metronome) : Prop where
  tempo : ∃ value : Rat, metronome.tempo = .finite value ∧ 1 ≤ value ∧ value ≤ 300
  interval : ∃ interval, metronome.pulseInterval? = some interval ∧
    8333333 ≤ interval.nanoseconds ∧ interval.nanoseconds ≤ 2500000000

variable {metronome : Metronome} {bpm told : Binary64} {bpms : List Binary64}

/-- Telling a metronome some tempos leaves everything else alone, and the last one counts. -/
theorem foldl_setTempo (told_eq : metronome.tempo = Tempo.restrict told) (bpms : List Binary64) :
    bpms.foldl setTempo metronome =
      { metronome with tempo := Tempo.restrict (bpms.getLast?.getD told) } := by
  induction bpms generalizing metronome told with
  | nil => simp [← told_eq]
  | cons bpm rest ih =>
      have told_eq' : (metronome.setTempo bpm).tempo = Tempo.restrict bpm := rfl
      rw [List.foldl_cons, ih told_eq', List.getLast?_cons]
      rfl

theorem pulseInterval?_eq_none_iff (told_eq : metronome.tempo = Tempo.restrict told) :
    metronome.pulseInterval? = none ↔ told = .nan := by
  rw [pulseInterval?, told_eq]
  constructor
  · intro noInterval
    by_contra number
    rcases Tempo.restrict_of_ne_nan number with ⟨value, restricted, one_le, le⟩
    rcases Tempo.pulseInterval?_of_mem one_le le with ⟨interval, found, _⟩
    rw [restricted, found] at noInterval
    cases noInterval
  · rintro rfl
    rw [Tempo.restrict_nan, Tempo.pulseInterval?_nan]

theorem playable_iff_of_told (told_eq : metronome.tempo = Tempo.restrict told) :
    metronome.Playable ↔ told ≠ .nan := by
  constructor
  · rintro ⟨_, interval, found, _⟩ rfl
    rw [(pulseInterval?_eq_none_iff told_eq).mpr rfl] at found
    cases found
  · intro number
    rcases Tempo.restrict_of_ne_nan number with ⟨value, restricted, one_le, le⟩
    rw [restricted] at told_eq
    refine ⟨⟨value, told_eq, one_le, le⟩, ?_⟩
    rw [pulseInterval?, told_eq]
    exact Tempo.pulseInterval?_of_mem one_le le

/-- The recorded run is live, and comes to this pulse next. -/
structure Plays (metronome : Metronome) (index pulse : Nat) : Prop where
  recorded : metronome.recorded = some index
  run : metronome.runs[index]? = some { pulse }

variable {index pulse : Nat}

theorem Plays.canPulse (plays : metronome.Plays index pulse) : metronome.canPulse index = true := by
  rw [Metronome.canPulse, plays.run]
  rfl

theorem Plays.setTempos (plays : metronome.Plays index pulse)
    (told_eq : metronome.tempo = Tempo.restrict told) (bpms : List Binary64) :
    (bpms.foldl setTempo metronome).Plays index pulse := by
  rw [foldl_setTempo told_eq]
  exact ⟨plays.recorded, plays.run⟩

/-- A run that has a time to wait for goes on to the next pulse of the measure. -/
theorem Plays.advance (plays : metronome.Plays index pulse)
    (hasInterval : metronome.pulseInterval?.isSome) :
    (metronome.advance index).Plays index ((pulse + 1) % pulsesPerMeasure) := by
  refine ⟨plays.recorded, ?_⟩
  rw [← Option.not_isNone, Bool.not_eq_true'] at hasInterval
  simp [Metronome.advance, modifyRun, plays.run, hasInterval]

theorem Plays.breaks_down (plays : metronome.Plays index pulse)
    (noInterval : metronome.pulseInterval? = none) :
    (metronome.advance index).canPulse index = false := by
  simp [Metronome.advance, modifyRun, Metronome.canPulse, plays.run, noInterval]

end Metronome

namespace HandlerScript

/-- What a handler tells its metronome in a call, given all the tempos that it tells, each with its
call. -/
def tempos (told : List (Nat × Binary64)) (call : Nat) : List Binary64 :=
  (told.filter fun entry => entry.1 = call).map Prod.snd

/-- A handler that only tells its metronome tempos. -/
def ofTempos (told : List (Nat × Binary64)) : HandlerScript :=
  told.map fun entry => (entry.1, .setTempo entry.2)

/-- The tempo told last when a number of calls is over, or the first one. -/
def toldAfter (first : Binary64) (told : List (Nat × Binary64)) (calls : Nat) : Binary64 :=
  (((List.range calls).flatMap (tempos told)).getLast?).getD first

variable {first : Binary64} {told : List (Nat × Binary64)} {calls index : Nat}
  {metronome : Metronome} {record : HandlerRecord}

theorem toldAfter_succ (first : Binary64) (told : List (Nat × Binary64)) (calls : Nat) :
    toldAfter first told (calls + 1) =
      (tempos told calls).getLast?.getD (toldAfter first told calls) := by
  rw [toldAfter, List.range_succ, List.flatMap_append, List.flatMap_singleton,
    List.getLast?_append]
  cases (tempos told calls).getLast? <;> rfl

theorem actionsAt_ofTempos (told : List (Nat × Binary64)) (call : Nat) :
    (ofTempos told).actionsAt call = (tempos told call).map .setTempo := by
  simp only [actionsAt, ofTempos, tempos, List.filter_map, List.map_map]
  rfl

theorem performAll_setTempo (metronome : Metronome) (record : HandlerRecord)
    (bpms : List Binary64) :
    performAll metronome record (bpms.map .setTempo) =
      (bpms.foldl Metronome.setTempo metronome, record) := by
  induction bpms generalizing metronome with
  | nil => rfl
  | cons bpm rest ih => exact ih (metronome.setTempo bpm)

theorem handleCall_ofTempos {pulse : Nat} (plays : metronome.Plays index pulse) (call : Nat) :
    handleCall (ofTempos told) call index metronome record =
      (((tempos told call).foldl Metronome.setTempo metronome).advance index,
        { record with pulses := record.pulses ++ [pulse] }) := by
  simp only [handleCall, actionsAt_ofTempos, performAll_setTempo, plays.run]
  rfl

/-- A run that has broken down makes no further call. -/
theorem pulses_playFrom_of_stuck {script : HandlerScript} {remaining : Nat}
    (recorded : metronome.recorded = some index) (stuck : metronome.canPulse index = false) :
    (playFrom script remaining calls metronome record).2.pulses = record.pulses := by
  cases remaining with
  | zero => rfl
  | succ remaining => simp [playFrom, recorded, stuck]

/-- A run makes all of some further calls, each with the next pulse of the measure, exactly if no
call but the last leaves the metronome with a tempo that is not a number. The induction is on the
calls to come; before each of them the run plays, and the tempo is the one told last. -/
theorem pulses_playFrom (plays : metronome.Plays index (calls % pulsesPerMeasure))
    (told_eq : metronome.tempo = Tempo.restrict (toldAfter first told calls)) (remaining : Nat) :
    (playFrom (ofTempos told) remaining calls metronome record).2.pulses =
        record.pulses ++ (List.range' calls remaining).map (· % pulsesPerMeasure) ↔
      ∀ later, calls < later → later < calls + remaining → toldAfter first told later ≠ .nan := by
  induction remaining generalizing calls metronome record with
  | zero =>
      simp only [playFrom, List.range'_zero, List.map_nil, List.append_nil, true_iff]
      omega
  | succ remaining ih =>
      have tempoed : ((tempos told calls).foldl Metronome.setTempo metronome).tempo =
          Tempo.restrict (toldAfter first told (calls + 1)) := by
        rw [Metronome.foldl_setTempo told_eq, toldAfter_succ]
      have playing := plays.setTempos told_eq (tempos told calls)
      have noInterval_iff := Metronome.pulseInterval?_eq_none_iff tempoed
      have calls_eq : record.pulses ++
          (List.range' calls (remaining + 1)).map (· % pulsesPerMeasure) =
            record.pulses ++ [calls % pulsesPerMeasure] ++
              (List.range' (calls + 1) remaining).map (· % pulsesPerMeasure) := by
        simp [List.range'_succ]
      simp only [playFrom, plays.recorded, plays.canPulse, if_true, handleCall_ofTempos plays,
        calls_eq]
      by_cases undefined : toldAfter first told (calls + 1) = .nan
      · have stuck := playing.breaks_down (noInterval_iff.mpr undefined)
        have recorded : (((tempos told calls).foldl Metronome.setTempo metronome).advance
            index).recorded = some index := playing.recorded
        rw [pulses_playFrom_of_stuck recorded stuck, List.self_eq_append_right]
        cases remaining with
        | zero =>
            simp only [List.range'_zero, List.map_nil, true_iff]
            omega
        | succ more =>
            rw [List.range'_succ, List.map_cons]
            refine iff_of_false (List.cons_ne_nil _ _) ?_
            intro numbers
            exact numbers (calls + 1) (by omega) (by omega) undefined
      · have hasInterval := Option.isSome_iff_ne_none.mpr (mt noInterval_iff.mp undefined)
        have advanced := playing.advance hasInterval
        rw [Nat.mod_add_mod] at advanced
        refine (ih advanced tempoed).trans ⟨?_, ?_⟩
        · intro numbers later above below
          rcases Nat.eq_or_lt_of_le above with rfl | beyond
          · exact undefined
          · exact numbers later beyond (by omega)
        · intro numbers later above below
          exact numbers later (by omega) (by omega)

end HandlerScript

namespace Metronome

/-- Whatever a new metronome is told, it can be played exactly if what it was told last is a number.
A handler that tells it further tempos from within a run is called again and again, each time with
the next pulse, exactly as long as no call leaves it with a tempo that is not a number. -/
theorem playable_iff_number (bpm : Binary64) (bpms : List Binary64)
    (told : List (Nat × Binary64)) :
    let metronome := bpms.foldl setTempo (ofTempo bpm)
    let last := bpms.getLast?.getD bpm
    (metronome.Playable ↔ last ≠ .nan) ∧
      ∀ count, (HandlerScript.playFrom (.ofTempos told) count 0 metronome.start {}).2.pulses =
          (List.range count).map (· % pulsesPerMeasure) ↔
        ∀ calls, 0 < calls → calls < count → HandlerScript.toldAfter last told calls ≠ .nan := by
  intro metronome last
  have metronome_eq : metronome = { ofTempo bpm with tempo := Tempo.restrict last } :=
    foldl_setTempo rfl bpms
  refine ⟨playable_iff_of_told (by rw [metronome_eq]), ?_⟩
  intro count
  have plays : metronome.start.Plays 0 (0 % pulsesPerMeasure) := by
    rw [metronome_eq]
    exact ⟨rfl, rfl⟩
  have told_eq : metronome.start.tempo = Tempo.restrict (HandlerScript.toldAfter last told 0) := by
    rw [metronome_eq]
    rfl
  have called : (HandlerScript.playFrom (.ofTempos told) count 0 metronome.start {}).2.pulses =
      [] ++ (List.range' 0 count).map (· % pulsesPerMeasure) ↔ _ :=
    HandlerScript.pulses_playFrom plays told_eq count
  rwa [← List.range_eq_range', Nat.zero_add] at called

/-- A new metronome that is told a tempo which is not a number cannot be played. -/
theorem not_playable_nan : ¬(ofTempo .nan).Playable := by
  intro playable
  exact (playable_iff_of_told rfl).mp playable rfl

end Metronome

end LiveScore
