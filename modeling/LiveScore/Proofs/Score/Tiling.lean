import LiveScore.Proofs.Numeric.Rounding
import LiveScore.Proofs.Score.Grid

/-!
# Slots side by side

The start and the end of a slot are two numbers that are rounded to whole pulses. Rounding keeps the
order, so later clusters start no earlier and more legato ends no slot earlier.

At full legato the end of a slot and the start of the next one are the same number, computed in two
ways. Both ways stay within a thousandth of a pulse of it, so they reach the same pulse unless the
number is half-way between two pulses. That leaves a hundred or so pairs of clusters to be computed,
seven of which go apart. From 96 clusters on a slot is narrower than a pulse, and the pulse that it
lasts covers every error.
-/

namespace LiveScore.Slot

open Binary64

/-- Clusters are counted in machine words. -/
def wordLimit : Nat := 0x10000000000000000

/-- What a number of shares of a measure of `count` clusters comes to in pulses. Both the start of a
slot and its length are computed in this way. -/
def pulsesOf (shares : Rat) (count : Nat) : Rat :=
  nearest (nearest (shares / nearest (max count 1 : Nat)) * 95)

/-- Where a slot starts, before it is rounded to a pulse. -/
def startValue (index count : Nat) : Rat := pulsesOf (nearest index) count

/-- How long a slot sounds, before it is rounded to a pulse. -/
def lengthValue (count legato : Nat) : Rat :=
  pulsesOf (nearest (nearest (min legato fullLegato : Nat) / 100)) count

/-- Where a slot stops, before it is rounded to a pulse. -/
def stopValue (index count legato : Nat) : Rat :=
  nearest (startValue index count + lengthValue count legato)

/-- The whole pulse nearest to a position; a half goes up. -/
def pulseAt (position : Rat) : Nat := (position + 1 / 2).floor.toNat

variable {index count legato later more roundings : Nat} {x y p q : Rat}

section Positions

variable {shares : Binary64} {exponent : Int}

theorem denotes_word {n : Nat} (n_lt : n < wordLimit) : Denotes (ofNat n) (nearest n) 64 := by
  have le : (n : Rat) ≤ powerOfTwo 64 := by
    rw [powerOfTwo_eq_zpow]
    exact_mod_cast n_lt.le
  exact denotes_ofNat le (by decide) (by decide)

theorem one_le_nearest {n : Nat} (pos : 0 < n) : 1 ≤ nearest n := by
  have le : powerOfTwo 0 ≤ n := by
    rw [powerOfTwo_zero]
    exact_mod_cast pos
  rw [← powerOfTwo_zero]
  exact powerOfTwo_le_nearest (by decide) le

theorem denotes_pulsesOf (denotes : Denotes shares q exponent) (least_le : -1074 ≤ exponent)
    (small : exponent ≤ 1016) (count_lt : count < wordLimit) :
    Denotes (shares / ofNat (max count 1) * ofNat lastPulse) (pulsesOf q count) (exponent + 7) := by
  have divisor := denotes_word (max_lt count_lt (by decide : 1 < wordLimit))
  have last : Denotes (ofNat lastPulse) 95 7 := denotes_of_le_hundred (by decide)
  have quotient := denotes.div divisor (one_le_nearest (by omega)) least_le (by omega)
  exact quotient.mul last (by omega) (by omega)

theorem denotes_startPosition (index_lt : index < wordLimit) (count_lt : count < wordLimit) :
    Denotes (startPosition index count) (startValue index count) 71 :=
  denotes_pulsesOf (denotes_word index_lt) (by decide) (by decide) count_lt

theorem denotes_stopPosition (index_lt : index < wordLimit) (count_lt : count < wordLimit)
    (legato : Nat) :
    Denotes (stopPosition (startPosition index count) count legato)
      (stopValue index count legato) 72 := by
  have percent_lt : min legato fullLegato < wordLimit :=
    (Nat.min_le_right legato fullLegato).trans_lt (by decide)
  have hundred : Denotes (ofNat fullLegato) 100 7 := denotes_of_le_hundred (by decide)
  have fraction := (denotes_word percent_lt).div hundred (by decide) (by decide) (by decide)
  have length := denotes_pulsesOf fraction (by decide) (by decide) count_lt
  exact (denotes_startPosition index_lt count_lt).add length (by decide) (by decide)

theorem toPulse_finite (nonneg : 0 ≤ x) (low high : Nat) :
    toPulse (finite x) low high = max low (min (pulseAt x) high) := by
  simp [toPulse, roundHalfAway?, value?, pulseAt, not_lt.mpr nonneg]

/-- The slot of a cluster in terms of the two numbers that are rounded to pulses. -/
theorem place_eq (index_lt : index < wordLimit) (count_lt : count < wordLimit) :
    place index count legato =
      let start := min (pulseAt (startValue index count)) 94
      ⟨start, max (max 1 (min (pulseAt (stopValue index count legato)) 95)) (start + 1)⟩ := by
  have start := denotes_startPosition index_lt count_lt
  have stop := denotes_stopPosition index_lt count_lt legato
  have startPulse : toPulse (startPosition index count) 0 (lastPulse - 1) =
      min (pulseAt (startValue index count)) 94 := by
    rw [start.eq, toPulse_finite start.nonneg, Nat.zero_max]
    rfl
  have stopPulse : toPulse (stopPosition (startPosition index count) count legato) 1 lastPulse =
      max 1 (min (pulseAt (stopValue index count legato)) 95) := by
    rw [stop.eq, toPulse_finite stop.nonneg]
    rfl
  simp only [place, startPulse, stopPulse, Slot.mk.injEq, true_and]
  split <;> omega

end Positions

section Order

theorem pulseAt_mono (ordered : x ≤ y) : pulseAt x ≤ pulseAt y :=
  Int.toNat_le_toNat (Rat.floor_monotone (by linarith))

theorem pulsesOf_nonneg (nonneg : 0 ≤ x) (count : Nat) : 0 ≤ pulsesOf x count := by
  have divisor_nonneg : 0 ≤ nearest (max count 1 : Nat) := nearest_nonneg (Nat.cast_nonneg _)
  have quotient_nonneg := nearest_nonneg (div_nonneg nonneg divisor_nonneg)
  exact nearest_nonneg (mul_nonneg quotient_nonneg (by norm_num))

theorem pulsesOf_mono (nonneg : 0 ≤ x) (ordered : x ≤ y) (count : Nat) :
    pulsesOf x count ≤ pulsesOf y count := by
  have divisor_nonneg : 0 ≤ nearest (max count 1 : Nat) := nearest_nonneg (Nat.cast_nonneg _)
  have quotient_nonneg := div_nonneg nonneg divisor_nonneg
  have quotient_le := nearest_mono quotient_nonneg
    (div_le_div_of_nonneg_right ordered divisor_nonneg)
  exact nearest_mono (mul_nonneg (nearest_nonneg quotient_nonneg) (by norm_num))
    (mul_le_mul_of_nonneg_right quotient_le (by norm_num))

theorem startValue_nonneg (index count : Nat) : 0 ≤ startValue index count :=
  pulsesOf_nonneg (nearest_nonneg index.cast_nonneg) count

theorem startValue_mono (ordered : index ≤ later) :
    startValue index count ≤ startValue later count :=
  pulsesOf_mono (nearest_nonneg index.cast_nonneg)
    (nearest_mono index.cast_nonneg (by exact_mod_cast ordered)) count

theorem stopValue_mono (ordered : min legato fullLegato ≤ min more fullLegato)
    (index count : Nat) :
    stopValue index count legato ≤ stopValue index count more := by
  have percent_nonneg := nearest_nonneg (min legato fullLegato : Nat).cast_nonneg
  have percent_le : nearest (min legato fullLegato : Nat) ≤ nearest (min more fullLegato : Nat) :=
    nearest_mono (Nat.cast_nonneg _) (by exact_mod_cast ordered)
  have fraction_nonneg := div_nonneg percent_nonneg (by norm_num : (0 : Rat) ≤ 100)
  have fraction_le := nearest_mono fraction_nonneg
    (div_le_div_of_nonneg_right percent_le (by norm_num : (0 : Rat) ≤ 100))
  have length_nonneg := pulsesOf_nonneg (nearest_nonneg fraction_nonneg) count
  have length_le := pulsesOf_mono (nearest_nonneg fraction_nonneg) fraction_le count
  exact nearest_mono (add_nonneg (startValue_nonneg index count) length_nonneg)
    (add_le_add_right length_le (startValue index count))

theorem start_le_start (ordered : index ≤ later) (later_lt : later < wordLimit)
    (count_lt : count < wordLimit) :
    (place index count legato).start ≤ (place later count more).start := by
  rw [place_eq (ordered.trans_lt later_lt) count_lt, place_eq later_lt count_lt]
  exact min_le_min_right 94 (pulseAt_mono (startValue_mono ordered))

theorem stop_le_stop (ordered : min legato fullLegato ≤ min more fullLegato)
    (index_lt : index < wordLimit) (count_lt : count < wordLimit) :
    (place index count legato).stop ≤ (place index count more).stop := by
  have reached := pulseAt_mono (stopValue_mono ordered index count)
  rw [place_eq index_lt count_lt, place_eq index_lt count_lt]
  simp only
  omega

end Order

section Errors

theorem normal_quotient (one_le : 1 ≤ x) (count_pos : 0 < count) (count_lt : count < wordLimit) :
    leastNormal ≤ x / nearest count := by
  have far : leastNormal * powerOfTwo 64 ≤ 1 := by
    rw [leastNormal, ← powerOfTwo_add, ← powerOfTwo_zero, powerOfTwo_le_iff]
    decide
  rw [le_div_iff₀ (zero_lt_one.trans_le (one_le_nearest count_pos))]
  calc
    leastNormal * nearest count ≤ leastNormal * powerOfTwo 64 :=
      mul_le_mul_of_nonneg_left (denotes_word count_lt).le leastNormal_pos.le
    _ ≤ 1 := far
    _ ≤ x := one_le

theorem normal_product (one_le : 1 ≤ x) (count_pos : 0 < count) (count_lt : count < wordLimit) :
    leastNormal ≤ nearest (x / nearest count) * 95 := by
  have rounded_le := leastNormal_le_nearest (normal_quotient one_le count_pos count_lt)
  linarith [leastNormal_pos]

theorem normal_pulsesOf (one_le : 1 ≤ x) (count_pos : 0 < count) (count_lt : count < wordLimit) :
    leastNormal ≤ pulsesOf x count := by
  rw [pulsesOf, max_eq_left (Nat.succ_le_of_lt count_pos)]
  exact leastNormal_le_nearest (normal_product one_le count_pos count_lt)

theorem near_natCast {n : Nat} (pos : 0 < n) : Near 1 (nearest n) n :=
  near_nearest (leastNormal_le_one.trans (by exact_mod_cast pos))

theorem near_pulsesOf (near : Near roundings x q) (one_le : 1 ≤ x) (count_pos : 0 < count)
    (count_lt : count < wordLimit) : Near (roundings + 3) (pulsesOf x count) (q / count * 95) := by
  have quotient := (near.div (near_natCast count_pos) (by exact_mod_cast count_pos)).rounded
    (normal_quotient one_le count_pos count_lt)
  have product := (quotient.mul (Near.refl (by norm_num : (0 : Rat) ≤ 95))).rounded
    (normal_product one_le count_pos count_lt)
  rw [pulsesOf, max_eq_left (Nat.succ_le_of_lt count_pos)]
  exact product

theorem near_startValue (index : Nat) (count_pos : 0 < count) (count_lt : count < wordLimit) :
    Near 4 (startValue index count) (index / count * 95) := by
  rcases Nat.eq_zero_or_pos index with rfl | index_pos
  · simpa [startValue, pulsesOf] using (Near.refl le_rfl).mono (Nat.zero_le 4)
  · exact near_pulsesOf (near_natCast index_pos) (one_le_nearest index_pos) count_pos count_lt

theorem near_stopValue (index : Nat) (count_pos : 0 < count) (count_lt : count < wordLimit) :
    Near 5 (stopValue index count fullLegato) ((index + 1 : Nat) / count * 95) := by
  have whole : nearest (nearest (min fullLegato fullLegato : Nat) / 100) = 1 := by
    have hundred : nearest (fullLegato : Nat) = 100 := nearest_of_le_hundred le_rfl
    have one : nearest (1 : Nat) = (1 : Nat) := nearest_of_le_hundred (by decide)
    rw [min_self, hundred, div_self (by norm_num)]
    simpa using one
  have length := near_pulsesOf (Near.refl zero_le_one) le_rfl count_pos count_lt
  have normal := normal_pulsesOf le_rfl count_pos count_lt
  have sum := (near_startValue index count_pos count_lt).add (length.mono (by decide))
  have exact_eq : (index : Rat) / count * 95 + 1 / count * 95 = (index + 1 : Nat) / count * 95 := by
    push_cast
    ring
  rw [exact_eq] at sum
  rw [stopValue, lengthValue, whole]
  exact sum.rounded (normal.trans (le_add_of_nonneg_left (startValue_nonneg index count)))

/-- Five roundings of a number on the grid are far from a pulse. -/
theorem abs_sub_lt (near : Near roundings x q) (few : roundings ≤ 5) (q_le : q ≤ 95) :
    |x - q| < 1 / 1000 := by
  have near := near.mono few
  have nearly : (999999 : Rat) / 1000000 ≤ remaining ^ 5 := by
    rw [remaining, powerOfTwo_eq_zpow]
    norm_num
  have below := (mul_le_mul_of_nonneg_left nearly near.nonneg).trans near.below
  have above := (mul_le_mul_of_nonneg_left nearly near.nonneg_left).trans near.above
  rw [abs_lt]
  constructor <;> linarith

end Errors

section Tiling

theorem pulseAt_add_one (nonneg : 0 ≤ x) : pulseAt (x + 1) = pulseAt x + 1 := by
  have shifted : x + 1 + 1 / 2 = x + 1 / 2 + (1 : Int) := by
    push_cast
    ring
  have floor_nonneg : 0 ≤ (x + 1 / 2).floor := Rat.le_floor_iff.mpr (by push_cast; linarith)
  rw [pulseAt, pulseAt, shifted, Rat.floor_add_intCast]
  omega

/-- A number that is close to a fraction which is not whole has the floor of the fraction. -/
theorem floor_eq_div {a b : Nat} (notWhole : a % b ≠ 0) (close : |x * b - a| < 1) :
    x.floor = (a / b : Nat) := by
  have b_pos : 0 < b := by
    refine Nat.pos_of_ne_zero ?_
    rintro rfl
    have a_lt : (a : Rat) < 1 := by simpa using close
    have a_zero : a < 1 := by exact_mod_cast a_lt
    exact notWhole (by rw [Nat.lt_one_iff.mp a_zero])
  have parts := Nat.div_add_mod a b
  have rest_lt := Nat.mod_lt a b_pos
  have low : ((b * (a / b) + 1 : Nat) : Rat) ≤ a := by exact_mod_cast (by omega)
  have high : (a : Rat) + 1 ≤ (b * (a / b) + b : Nat) := by exact_mod_cast (by omega)
  have b_pos' : (0 : Rat) < b := by exact_mod_cast b_pos
  rcases abs_lt.mp close with ⟨above, below⟩
  push_cast at low high
  change ⌊x⌋ = _
  rw [Int.floor_eq_iff, Int.cast_natCast]
  constructor
  · refine le_of_mul_le_mul_right ?_ b_pos'
    linarith
  · refine lt_of_mul_lt_mul_right ?_ b_pos'.le
    linarith

/-- In a measure of at least 96 clusters a slot at full legato lasts one pulse. -/
theorem stop_of_dense (inMeasure : index + 1 < count) (count_lt : count < wordLimit)
    (dense : 96 ≤ count) :
    (place index count fullLegato).stop = (place index count fullLegato).start + 1 ∧
      (place (index + 1) count fullLegato).start ≤ (place index count fullLegato).start + 1 := by
  have count_pos : 0 < count := by omega
  have count_pos' : (0 : Rat) < count := by exact_mod_cast count_pos
  have narrow : (95 : Rat) / count ≤ 95 / 96 :=
    div_le_div_of_nonneg_left (by norm_num) (by norm_num) (by exact_mod_cast dense)
  have next_eq : ((index + 1 : Nat) : Rat) / count * 95 = index / count * 95 + 95 / count := by
    push_cast
    ring
  have next_le : ((index + 1 : Nat) : Rat) / count * 95 ≤ 95 := by
    have inside : ((index + 1 : Nat) : Rat) / count ≤ 1 :=
      (div_le_one count_pos').mpr (by exact_mod_cast inMeasure.le)
    linarith
  have this_le : (index : Rat) / count * 95 ≤ 95 := by
    linarith [div_pos (by norm_num : (0 : Rat) < 95) count_pos']
  have thisClose := abs_lt.mp (abs_sub_lt (near_startValue index count_pos count_lt)
    (by decide) this_le)
  have nextClose := abs_lt.mp (abs_sub_lt (near_startValue (index + 1) count_pos count_lt)
    (by decide) next_le)
  have stopClose := abs_lt.mp (abs_sub_lt (near_stopValue index count_pos count_lt)
    (by decide) next_le)
  have nextPulse : pulseAt (startValue (index + 1) count) ≤
      pulseAt (startValue index count) + 1 := by
    rw [← pulseAt_add_one (startValue_nonneg index count)]
    exact pulseAt_mono (by linarith)
  have stopPulse : pulseAt (stopValue index count fullLegato) ≤
      pulseAt (startValue index count) + 1 := by
    rw [← pulseAt_add_one (startValue_nonneg index count)]
    exact pulseAt_mono (by linarith)
  rw [place_eq (by omega) count_lt, place_eq (by omega) count_lt]
  simp only
  omega

/-- The clusters, as index and count, that end a pulse before the next one starts at full legato.
The end and the next start are the same number, half-way between two pulses, but the roundings on
the way put one of them below it. -/
def gaps : List (Nat × Nat) :=
  [(17, 36), (20, 42), (17, 60), (53, 60), (45, 76), (23, 80), (42, 86)]

theorem pulseAt_eq_div {next : Nat} (close : |x - next / count * 95| < 1 / 1000)
    (count_pos : 0 < count) (coarse : count < 96)
    (notHalf : (190 * next + count) % (2 * count) ≠ 0) :
    pulseAt x = (190 * next + count) / (2 * count) := by
  have count_pos' : (0 : Rat) < count := by exact_mod_cast count_pos
  have coarse' : (count : Rat) ≤ 95 := by exact_mod_cast Nat.le_of_lt_succ coarse
  have scaled_eq : (x + 1 / 2) * (2 * count : Nat) - (190 * next + count : Nat) =
      (x - next / count * 95) * (2 * count) := by
    push_cast
    field_simp
    ring
  have scaled : |(x + 1 / 2) * (2 * count : Nat) - (190 * next + count : Nat)| < 1 := by
    rw [scaled_eq, abs_mul, abs_of_pos (by linarith : (0 : Rat) < 2 * count)]
    calc
      |x - next / count * 95| * (2 * count) ≤ 1 / 1000 * (2 * 95) := by gcongr
      _ < 1 := by norm_num
  rw [pulseAt, floor_eq_div notHalf scaled, Int.toNat_natCast]

/-- The exact position of the next start is half-way between two pulses. -/
theorem pulseAt_of_half : ∀ count < 96, ∀ next < count,
    (190 * next + count) % (2 * count) = 0 →
      pulseAt (startValue next count) = pulseAt (stopValue (next - 1) count fullLegato) +
        if (next - 1, count) ∈ gaps then 1 else 0 := by
  decide +kernel

theorem half_of_mem_gaps : ∀ gap ∈ gaps, (190 * (gap.1 + 1) + gap.2) % (2 * gap.2) = 0 := by
  decide

theorem stop_of_gap (isGap : (index, count) ∈ gaps) :
    (place index count fullLegato).stop + 1 = (place (index + 1) count fullLegato).start := by
  have all : ∀ gap ∈ gaps,
      (place gap.1 gap.2 fullLegato).stop + 1 = (place (gap.1 + 1) gap.2 fullLegato).start := by
    decide +kernel
  exact all (index, count) isGap

section Coarse

variable (inMeasure : index + 1 < count) (coarse : count < 96)

include inMeasure coarse

theorem next_le : (((index + 1 : Nat) : Rat) / count * 95) ≤ 94 := by
  have count_pos : (0 : Rat) < count := by exact_mod_cast (by omega : 0 < count)
  rw [div_mul_eq_mul_div, div_le_iff₀ count_pos]
  exact_mod_cast (by omega : (index + 1) * 95 ≤ 94 * count)

theorem abs_start_sub_lt :
    |startValue (index + 1) count - (index + 1 : Nat) / count * 95| < 1 / 1000 := by
  have count_lt : count < wordLimit := coarse.trans (by decide)
  exact abs_sub_lt (near_startValue (index + 1) (by omega) count_lt) (by decide)
    ((next_le inMeasure coarse).trans (by norm_num))

theorem abs_stop_sub_lt :
    |stopValue index count fullLegato - (index + 1 : Nat) / count * 95| < 1 / 1000 := by
  have count_lt : count < wordLimit := coarse.trans (by decide)
  exact abs_sub_lt (near_stopValue index (by omega) count_lt) le_rfl
    ((next_le inMeasure coarse).trans (by norm_num))

theorem pulseAt_startValue_next :
    pulseAt (startValue (index + 1) count) =
      pulseAt (stopValue index count fullLegato) + if (index, count) ∈ gaps then 1 else 0 := by
  by_cases half : (190 * (index + 1) + count) % (2 * count) = 0
  · simpa using pulseAt_of_half count coarse (index + 1) inMeasure half
  · have noGap : (index, count) ∉ gaps := fun isGap => half (half_of_mem_gaps _ isGap)
    rw [pulseAt_eq_div (abs_start_sub_lt inMeasure coarse) (by omega) coarse half,
      pulseAt_eq_div (abs_stop_sub_lt inMeasure coarse) (by omega) coarse half, if_neg noGap]
    rfl

theorem pulseAt_next_le : pulseAt (startValue (index + 1) count) ≤ 94 := by
  have close := (abs_lt.mp (abs_start_sub_lt inMeasure coarse)).2
  have next_le := next_le inMeasure coarse
  have floor_lt : (startValue (index + 1) count + 1 / 2).floor < 95 := by
    rw [Rat.floor_lt_iff]
    push_cast at close next_le ⊢
    linarith
  unfold pulseAt
  omega

theorem stop_of_coarse (noGap : (index, count) ∉ gaps) :
    (place index count fullLegato).stop =
      max (place (index + 1) count fullLegato).start
        ((place index count fullLegato).start + 1) := by
  have word : 96 < wordLimit := by decide
  have below := pulseAt_next_le inMeasure coarse
  have next_eq := pulseAt_startValue_next inMeasure coarse
  rw [if_neg noGap] at next_eq
  rw [place_eq (by omega) (by omega), place_eq (by omega) (by omega)]
  simp only
  omega

end Coarse

/-- At full legato each cluster ends where the next one starts, or after one pulse where the slots
are narrower than that, but for the gaps. -/
theorem stop_of_not_gap (inMeasure : index + 1 < count) (count_lt : count < wordLimit)
    (noGap : (index, count) ∉ gaps) :
    (place index count fullLegato).stop =
      max (place (index + 1) count fullLegato).start
        ((place index count fullLegato).start + 1) := by
  rcases Nat.lt_or_ge count 96 with coarse | dense
  · exact stop_of_coarse inMeasure coarse noGap
  · rcases stop_of_dense inMeasure count_lt dense with ⟨stop_eq, next_le⟩
    omega

end Tiling

/-- Slots start on the pulses up to 94, last at least one pulse and end on the grid. Clusters that
come later in a measure start no earlier, more legato ends no slot earlier, and a slot that lasts
more than one pulse ends no later than the next one starts. -/
theorem place_ordered (index_lt : index < wordLimit) (count_lt : count < wordLimit) (legato : Nat) :
    let slot := place index count legato
    (slot.start ≤ 94 ∧ slot.start < slot.stop ∧ slot.stop ≤ 95) ∧
      (∀ later < wordLimit, index ≤ later → ∀ other,
        slot.start ≤ (place later count other).start) ∧
      (∀ more, legato ≤ more → slot.stop ≤ (place index count more).stop) ∧
      (index + 1 < count →
        slot.stop ≤ max (place (index + 1) count legato).start (slot.start + 1)) := by
  intro slot
  refine ⟨⟨?_, start_lt_stop index count legato, stop_le_lastPulse index count legato⟩, ?_, ?_, ?_⟩
  · exact Nat.le_of_lt_succ (start_lt_lastPulse index count legato)
  · intro later later_lt ordered other
    exact start_le_start ordered later_lt count_lt
  · intro more ordered
    exact stop_le_stop (by omega) index_lt count_lt
  · intro inMeasure
    have longest : slot.stop ≤ (place index count fullLegato).stop :=
      stop_le_stop (by omega) index_lt count_lt
    refine longest.trans ?_
    -- The start of a slot does not depend on the legato.
    change _ ≤ max (place (index + 1) count fullLegato).start
      ((place index count fullLegato).start + 1)
    by_cases isGap : (index, count) ∈ gaps
    · have earlier := stop_of_gap isGap
      omega
    · exact (stop_of_not_gap inMeasure count_lt isGap).le

/-- The last but one of the greatest number of clusters, at twice the full legato. -/
theorem place_ordered_greatest :
    let index := 0xFFFFFFFFFFFFFFFD
    let count := 0xFFFFFFFFFFFFFFFF
    index < wordLimit ∧ count < wordLimit ∧ (place index count 200).start ≤ 94 ∧
      (place index count 200).stop ≤
        max (place (index + 1) count 200).start ((place index count 200).start + 1) := by
  intro index count
  have index_lt : index < wordLimit := by decide
  have count_lt : count < wordLimit := by decide
  rcases place_ordered index_lt count_lt 200 with ⟨bounds, _, _, noOverlap⟩
  exact ⟨index_lt, count_lt, bounds.1, noOverlap (by decide)⟩

/-- At full legato a cluster sounds until the next one starts, and for one pulse where the slots are
narrower, exactly if it is not before a gap. A gap is one pulse wide. -/
theorem tiles_iff (inMeasure : index + 1 < count) (count_lt : count < wordLimit) :
    let slot := place index count fullLegato
    let next := place (index + 1) count fullLegato
    (slot.stop = max next.start (slot.start + 1) ↔ (index, count) ∉ gaps) ∧
      ((index, count) ∈ gaps → slot.stop + 1 = next.start) := by
  refine ⟨⟨?_, stop_of_not_gap inMeasure count_lt⟩, stop_of_gap⟩
  intro tiles isGap
  have earlier := stop_of_gap isGap
  omega

theorem tiles_iff_sixty :
    17 + 1 < 60 ∧ 60 < wordLimit ∧
      (place 17 60 fullLegato).stop + 1 = (place (17 + 1) 60 fullLegato).start := by
  have inMeasure : 17 + 1 < 60 := by decide
  have count_lt : 60 < wordLimit := by decide
  exact ⟨inMeasure, count_lt, (tiles_iff inMeasure count_lt).2 (by decide)⟩

/-- Half of 36 clusters reach to the position 47.5. The end of the last of them is rounded to pulse
47 and the start of the next one to pulse 48. -/
theorem not_tiles :
    ¬∀ index count, index + 1 < count → count < wordLimit →
      (place index count fullLegato).stop =
        max (place (index + 1) count fullLegato).start
          ((place index count fullLegato).start + 1) := by
  intro tiles
  have tile := tiles 17 36 (by decide) (by decide)
  have earlier := stop_of_gap (by decide : (17, 36) ∈ gaps)
  omega

end LiveScore.Slot
