import LiveScore.Numeric.Binary64
import Mathlib.Algebra.Order.Field.Power
import Mathlib.Data.Rat.Floor
import Mathlib.Tactic.FieldSimp
import Mathlib.Tactic.Linarith
import Mathlib.Tactic.Positivity
import Mathlib.Tactic.Ring

/-!
# Rounding to double precision

Rounding to the nearest double keeps the order of numbers and moves each of them by half a step at
most, which is a fixed fraction of the number unless it is tiny. `Near` counts the roundings that
lie between a computed number and the exact one, so that the error of a formula is read off its
operations. `Denotes` says that an operation on numbers below a power of two is one rounding of the
exact result.

Everything here is about numbers that are not negative; positions in a measure and tempos are.
-/

namespace LiveScore.Binary64

theorem powerOfTwo_eq_zpow (exponent : Int) : powerOfTwo exponent = (2 : Rat) ^ exponent := by
  cases exponent with
  | ofNat exponent => simp [powerOfTwo]
  | negSucc exponent => simp [powerOfTwo, Rat.mkRat_eq_div, zpow_negSucc]

theorem powerOfTwo_pos (exponent : Int) : 0 < powerOfTwo exponent := by
  rw [powerOfTwo_eq_zpow]
  exact zpow_pos (by norm_num) exponent

theorem powerOfTwo_add (first second : Int) :
    powerOfTwo (first + second) = powerOfTwo first * powerOfTwo second := by
  simp only [powerOfTwo_eq_zpow]
  exact zpow_add₀ (by norm_num) first second

@[simp]
theorem powerOfTwo_zero : powerOfTwo 0 = 1 := by simp [powerOfTwo_eq_zpow]

@[simp]
theorem powerOfTwo_one : powerOfTwo 1 = 2 := by simp [powerOfTwo_eq_zpow]

theorem powerOfTwo_le_iff {first second : Int} :
    powerOfTwo first ≤ powerOfTwo second ↔ first ≤ second := by
  simp only [powerOfTwo_eq_zpow]
  exact zpow_le_zpow_iff_right₀ (by norm_num)

theorem powerOfTwo_lt_iff {first second : Int} :
    powerOfTwo first < powerOfTwo second ↔ first < second := by
  simp only [powerOfTwo_eq_zpow]
  exact zpow_lt_zpow_iff_right₀ (by norm_num)

theorem powerOfTwo_log2_le {n : Nat} (pos : n ≠ 0) : powerOfTwo n.log2 ≤ n := by
  simp only [powerOfTwo_eq_zpow, zpow_natCast]
  exact_mod_cast Nat.log2_self_le pos

theorem lt_powerOfTwo_log2 (n : Nat) : (n : Rat) < powerOfTwo (n.log2 + 1) := by
  have bound := Nat.lt_log2_self (n := n)
  rw [powerOfTwo_eq_zpow, ← Nat.cast_one, ← Nat.cast_add, zpow_natCast]
  exact_mod_cast bound

theorem binaryExponent_spec {q : Rat} (pos : 0 < q) :
    powerOfTwo (binaryExponent q) ≤ q ∧ q < powerOfTwo (binaryExponent q + 1) := by
  have num_pos : 0 < q.num := Rat.num_pos.mpr pos
  have den_pos : (0 : Rat) < q.den := by exact_mod_cast q.den_pos
  have quotient_eq : (q.num.natAbs : Rat) = q * q.den := by
    rw [Rat.mul_den_eq_num, ← Int.cast_natCast, Int.natAbs_of_nonneg num_pos.le]
  have numLow := powerOfTwo_log2_le (n := q.num.natAbs) (by omega)
  have numHigh := lt_powerOfTwo_log2 q.num.natAbs
  have denLow := powerOfTwo_log2_le q.den_nz
  have denHigh := lt_powerOfTwo_log2 q.den
  rw [quotient_eq] at numLow numHigh
  -- The leading bits of numerator and denominator leave open which of two powers is below `q`.
  set numLog := (q.num.natAbs.log2 : Int)
  set denLog := (q.den.log2 : Int)
  have low : powerOfTwo (numLog - denLog - 1) ≤ q := by
    refine le_of_mul_le_mul_right ?_ den_pos
    calc
      powerOfTwo (numLog - denLog - 1) * q.den
          ≤ powerOfTwo (numLog - denLog - 1) * powerOfTwo (denLog + 1) :=
        mul_le_mul_of_nonneg_left denHigh.le (powerOfTwo_pos _).le
      _ = powerOfTwo numLog := by rw [← powerOfTwo_add]; congr 1; omega
      _ ≤ q * q.den := numLow
  have high : q < powerOfTwo (numLog - denLog + 1) := by
    refine lt_of_mul_lt_mul_right ?_ den_pos.le
    calc
      q * q.den < powerOfTwo (numLog + 1) := numHigh
      _ = powerOfTwo (numLog - denLog + 1) * powerOfTwo denLog := by
        rw [← powerOfTwo_add]; congr 1; omega
      _ ≤ powerOfTwo (numLog - denLog + 1) * q.den :=
        mul_le_mul_of_nonneg_left denLow (powerOfTwo_pos _).le
  simp only [binaryExponent]
  split
  · rename_i below
    exact ⟨low, by simpa using below⟩
  · rename_i above
    exact ⟨not_lt.mp above, high⟩

theorem binaryExponent_mono {p q : Rat} (pos : 0 < p) (ordered : p ≤ q) :
    binaryExponent p ≤ binaryExponent q := by
  have low := (binaryExponent_spec pos).1
  have high := (binaryExponent_spec (pos.trans_le ordered)).2
  have apart := powerOfTwo_lt_iff.mp ((low.trans ordered).trans_lt high)
  omega

section NearestEven

variable {p q : Rat}

theorem abs_nearestEven_sub_le (q : Rat) : |(nearestEven q : Rat) - q| ≤ 1 / 2 := by
  have below := Rat.floor_le q
  have above := Rat.lt_floor (x := q)
  rw [abs_le]
  simp only [nearestEven]
  split
  · constructor <;> linarith
  · split
    · push_cast
      constructor <;> linarith
    · split
      · constructor <;> linarith
      · push_cast
        constructor <;> linarith

@[simp]
theorem nearestEven_intCast (n : Int) : nearestEven (n : Rat) = n := by
  simp [nearestEven]

theorem floor_le_nearestEven (q : Rat) : q.floor ≤ nearestEven q := by
  simp only [nearestEven]
  split_ifs <;> omega

theorem nearestEven_le_floor_add_one (q : Rat) : nearestEven q ≤ q.floor + 1 := by
  simp only [nearestEven]
  split_ifs <;> omega

theorem nearestEven_mono (ordered : p ≤ q) : nearestEven p ≤ nearestEven q := by
  have floors : p.floor ≤ q.floor := Rat.floor_monotone ordered
  rcases floors.lt_or_eq with apart | same
  · calc
      nearestEven p ≤ p.floor + 1 := nearestEven_le_floor_add_one p
      _ ≤ q.floor := apart
      _ ≤ nearestEven q := floor_le_nearestEven q
  · -- With the same floor the excess decides, and it grows.
    have excess : p - p.floor ≤ q - q.floor := by
      rw [same]
      linarith
    simp only [nearestEven, same] at excess ⊢
    split_ifs <;> first | omega | linarith

end NearestEven

section Nearest

variable {p q : Rat}

/-- The exponent of the spacing of the representable numbers around `q`. -/
def spacingExponent (q : Rat) : Int :=
  if q = 0 then -1074 else max (binaryExponent q - 52) (-1074)

theorem spacing_eq_powerOfTwo (q : Rat) : spacing q = powerOfTwo (spacingExponent q) := by
  unfold spacing spacingExponent
  split <;> rfl

theorem spacing_pos (q : Rat) : 0 < spacing q := by
  rw [spacing_eq_powerOfTwo]
  exact powerOfTwo_pos _

theorem spacingExponent_mono (nonneg : 0 ≤ p) (ordered : p ≤ q) :
    spacingExponent p ≤ spacingExponent q := by
  unfold spacingExponent
  rcases nonneg.eq_or_lt with rfl | pos
  · rw [if_pos rfl]
    split <;> omega
  · have grows := binaryExponent_mono pos ordered
    rw [if_neg pos.ne', if_neg (pos.trans_le ordered).ne']
    omega

theorem nearest_of_nonneg (nonneg : 0 ≤ q) :
    nearest q = nearestEven (q / spacing q) * spacing q := by
  simp only [nearest, Rat.abs_of_nonneg nonneg]

/-- A power of two is a whole number of steps of any smaller spacing. -/
theorem exists_powerOfTwo_eq {exponent : Int} (coarse : spacingExponent q ≤ exponent) :
    ∃ steps : Int, powerOfTwo exponent = steps * spacing q := by
  rcases Int.eq_ofNat_of_zero_le (Int.sub_nonneg.mpr coarse) with ⟨places, places_eq⟩
  refine ⟨Nat.pow 2 places, ?_⟩
  calc
    powerOfTwo exponent = powerOfTwo places * powerOfTwo (spacingExponent q) := by
      rw [← powerOfTwo_add]
      congr 1
      omega
    _ = ((Nat.pow 2 places : Nat) : Int) * spacing q := by
      rw [spacing_eq_powerOfTwo, Int.cast_natCast]
      rfl

theorem le_nearest_of_coarse {exponent : Int} (nonneg : 0 ≤ q)
    (coarse : spacingExponent q ≤ exponent) (le : powerOfTwo exponent ≤ q) :
    powerOfTwo exponent ≤ nearest q := by
  rcases exists_powerOfTwo_eq coarse with ⟨steps, power_eq⟩
  rw [power_eq] at le ⊢
  rw [nearest_of_nonneg nonneg]
  refine mul_le_mul_of_nonneg_right ?_ (spacing_pos q).le
  have reached := nearestEven_mono ((le_div_iff₀ (spacing_pos q)).mpr le)
  rw [nearestEven_intCast] at reached
  exact_mod_cast reached

theorem nearest_le_of_coarse {exponent : Int} (nonneg : 0 ≤ q)
    (coarse : spacingExponent q ≤ exponent) (le : q ≤ powerOfTwo exponent) :
    nearest q ≤ powerOfTwo exponent := by
  rcases exists_powerOfTwo_eq coarse with ⟨steps, power_eq⟩
  rw [power_eq] at le ⊢
  rw [nearest_of_nonneg nonneg]
  refine mul_le_mul_of_nonneg_right ?_ (spacing_pos q).le
  have reached := nearestEven_mono ((div_le_iff₀ (spacing_pos q)).mpr le)
  rw [nearestEven_intCast] at reached
  exact_mod_cast reached

/-- Rounding keeps the order. Where the spacing grows between two numbers, a power of two stands
between them, and it stands between what they are rounded to as well. -/
theorem nearest_mono (nonneg : 0 ≤ p) (ordered : p ≤ q) : nearest p ≤ nearest q := by
  have q_nonneg := nonneg.trans ordered
  rcases (spacingExponent_mono nonneg ordered).lt_or_eq with finer | same
  · have q_pos : 0 < q := by
      refine q_nonneg.lt_of_ne ?_
      rintro rfl
      rw [le_antisymm ordered nonneg] at finer
      exact lt_irrefl _ finer
    have spacing_q : spacingExponent q = binaryExponent q - 52 := by
      unfold spacingExponent at finer ⊢
      rw [if_neg q_pos.ne'] at finer ⊢
      split at finer <;> omega
    have p_le : p ≤ powerOfTwo (binaryExponent q) := by
      rcases nonneg.eq_or_lt with rfl | p_pos
      · exact (powerOfTwo_pos _).le
      · refine (binaryExponent_spec p_pos).2.le.trans (powerOfTwo_le_iff.mpr ?_)
        rw [spacing_q, spacingExponent, if_neg p_pos.ne'] at finer
        omega
    calc
      nearest p ≤ powerOfTwo (binaryExponent q) := nearest_le_of_coarse nonneg (by omega) p_le
      _ ≤ nearest q := le_nearest_of_coarse q_nonneg (by omega) (binaryExponent_spec q_pos).1
  · rw [nearest_of_nonneg nonneg, nearest_of_nonneg q_nonneg, spacing_eq_powerOfTwo p, same,
      ← spacing_eq_powerOfTwo]
    refine mul_le_mul_of_nonneg_right ?_ (spacing_pos q).le
    exact_mod_cast nearestEven_mono (div_le_div_of_nonneg_right ordered (spacing_pos q).le)

theorem nearest_nonneg (nonneg : 0 ≤ q) : 0 ≤ nearest q := by
  rw [nearest_of_nonneg nonneg]
  have floor_nonneg : nearestEven (0 : Int) ≤ nearestEven (q / spacing q) :=
    nearestEven_mono (by simpa using div_nonneg nonneg (spacing_pos q).le)
  rw [nearestEven_intCast] at floor_nonneg
  exact mul_nonneg (by exact_mod_cast floor_nonneg) (spacing_pos q).le

/-- Half a step is the most that rounding moves a number. -/
theorem abs_nearest_sub_le (nonneg : 0 ≤ q) : |nearest q - q| ≤ spacing q / 2 := by
  have step_pos := spacing_pos q
  have difference_eq : nearest q - q =
      (nearestEven (q / spacing q) - q / spacing q) * spacing q := by
    rw [nearest_of_nonneg nonneg, sub_mul, div_mul_cancel₀ q step_pos.ne']
  rw [difference_eq, abs_mul, abs_of_pos step_pos]
  calc
    |nearestEven (q / spacing q) - q / spacing q| * spacing q ≤ 1 / 2 * spacing q :=
      mul_le_mul_of_nonneg_right (abs_nearestEven_sub_le _) step_pos.le
    _ = spacing q / 2 := by ring

theorem spacingExponent_powerOfTwo_le {exponent : Int} (least_le : -1074 ≤ exponent) :
    spacingExponent (powerOfTwo exponent) ≤ exponent := by
  have low := powerOfTwo_le_iff.mp (binaryExponent_spec (powerOfTwo_pos exponent)).1
  rw [spacingExponent, if_neg (powerOfTwo_pos exponent).ne']
  omega

theorem nearest_powerOfTwo {exponent : Int} (least_le : -1074 ≤ exponent) :
    nearest (powerOfTwo exponent) = powerOfTwo exponent := by
  have nonneg := (powerOfTwo_pos exponent).le
  have coarse := spacingExponent_powerOfTwo_le least_le
  exact le_antisymm (nearest_le_of_coarse nonneg coarse le_rfl)
    (le_nearest_of_coarse nonneg coarse le_rfl)

/-- Whole numbers of at most 53 bits are doubles. -/
theorem nearest_natCast {n : Nat} (small : (n : Rat) < powerOfTwo 53) : nearest n = n := by
  have fine : spacingExponent n ≤ 0 := by
    unfold spacingExponent
    split
    · decide
    · rename_i nonzero
      have pos : (0 : Rat) < n := n.cast_nonneg.lt_of_ne' nonzero
      have bits := powerOfTwo_lt_iff.mp ((binaryExponent_spec pos).1.trans_lt small)
      omega
  rcases exists_powerOfTwo_eq fine with ⟨steps, one_eq⟩
  rw [powerOfTwo_zero] at one_eq
  have quotient_eq : (n : Rat) / spacing n = ((n * steps : Int) : Rat) := by
    rw [div_eq_iff (spacing_pos _).ne']
    push_cast
    rw [mul_assoc, ← one_eq, mul_one]
  rw [nearest_of_nonneg n.cast_nonneg, quotient_eq, nearestEven_intCast, ← quotient_eq,
    div_mul_cancel₀ _ (spacing_pos _).ne']

@[simp]
theorem nearest_zero : nearest 0 = 0 := by
  have unmoved := nearest_natCast (n := 0) (by simpa using powerOfTwo_pos 53)
  simpa using unmoved

theorem powerOfTwo_le_nearest {exponent : Int} (least_le : -1074 ≤ exponent)
    (le : powerOfTwo exponent ≤ q) : powerOfTwo exponent ≤ nearest q := by
  rw [← nearest_powerOfTwo least_le]
  exact nearest_mono (powerOfTwo_pos exponent).le le

theorem nearest_le_powerOfTwo {exponent : Int} (least_le : -1074 ≤ exponent) (nonneg : 0 ≤ q)
    (le : q ≤ powerOfTwo exponent) : nearest q ≤ powerOfTwo exponent := by
  rw [← nearest_powerOfTwo least_le]
  exact nearest_mono nonneg le

end Nearest

section Operations

variable {x y : Binary64} {p q : Rat} {first second exponent : Int}

theorem ofExact_of_nonneg (nonneg : 0 ≤ q) (small : q ≤ powerOfTwo 1023) :
    ofExact false q = finite (nearest q) := by
  have rounded_nonneg := nearest_nonneg nonneg
  have below : nearest q < powerOfTwo 1024 :=
    (nearest_le_powerOfTwo (by decide) nonneg small).trans_lt (powerOfTwo_lt_iff.mpr (by decide))
  simp only [ofExact]
  split
  · rename_i isZero
    rw [isZero, if_neg (by simp [nonneg])]
  · rw [Rat.abs_of_nonneg rounded_nonneg, if_neg (not_le.mpr below)]

/-- A double is a number from zero up to a power of two. -/
structure Denotes (x : Binary64) (q : Rat) (exponent : Int) : Prop where
  eq : x = finite q
  nonneg : 0 ≤ q
  le : q ≤ powerOfTwo exponent

theorem denotes_ofExact (nonneg : 0 ≤ q) (le : q ≤ powerOfTwo exponent)
    (least_le : -1074 ≤ exponent) (small : exponent ≤ 1023) :
    Denotes (ofExact false q) (nearest q) exponent where
  eq := ofExact_of_nonneg nonneg (le.trans (powerOfTwo_le_iff.mpr small))
  nonneg := nearest_nonneg nonneg
  le := nearest_le_powerOfTwo least_le nonneg le

namespace Denotes

theorem isNegative_eq (denotes : Denotes x q exponent) : x.isNegative = false := by
  rw [denotes.eq]
  simpa [isNegative] using denotes.nonneg

theorem add (left : Denotes x p exponent) (right : Denotes y q exponent)
    (least_le : -1074 ≤ exponent) (small : exponent < 1023) :
    Denotes (x + y) (nearest (p + q)) (exponent + 1) := by
  have sum_le : p + q ≤ powerOfTwo (exponent + 1) := by
    rw [powerOfTwo_add, powerOfTwo_one]
    linarith [left.le, right.le]
  have denotes := denotes_ofExact (add_nonneg left.nonneg right.nonneg) sum_le (by omega) small
  rw [left.eq, right.eq]
  exact denotes

theorem mul (left : Denotes x p first) (right : Denotes y q second)
    (least_le : -1074 ≤ first + second) (small : first + second ≤ 1023) :
    Denotes (x * y) (nearest (p * q)) (first + second) := by
  have product_le : p * q ≤ powerOfTwo (first + second) := by
    rw [powerOfTwo_add]
    exact mul_le_mul left.le right.le right.nonneg (powerOfTwo_pos first).le
  have product_eq : x * y = ofExact (x.isNegative != y.isNegative) (p * q) := by
    rw [left.eq, right.eq]
    rfl
  rw [product_eq, left.isNegative_eq, right.isNegative_eq]
  exact denotes_ofExact (mul_nonneg left.nonneg right.nonneg) product_le least_le small

/-- Dividing by a number from one on does not make a number greater. -/
theorem div (left : Denotes x p first) (right : Denotes y q second) (one_le : 1 ≤ q)
    (least_le : -1074 ≤ first) (small : first ≤ 1023) :
    Denotes (x / y) (nearest (p / q)) first := by
  have q_pos : 0 < q := zero_lt_one.trans_le one_le
  have quotient_eq : x / y = if q = 0 then if p = 0 then nan else
      infinite (x.isNegative != y.isNegative) else
        ofExact (x.isNegative != y.isNegative) (p / q) := by
    rw [left.eq, right.eq]
    rfl
  rw [quotient_eq, if_neg q_pos.ne', left.isNegative_eq, right.isNegative_eq]
  exact denotes_ofExact (div_nonneg left.nonneg q_pos.le)
    ((div_le_self left.nonneg one_le).trans left.le) least_le small

end Denotes

theorem denotes_ofNat {n : Nat} (le : (n : Rat) ≤ powerOfTwo exponent) (least_le : -1074 ≤ exponent)
    (small : exponent ≤ 1023) : Denotes (ofNat n) (nearest n) exponent :=
  denotes_ofExact n.cast_nonneg le least_le small

/-- Small whole numbers, as the constants of a formula are, are doubles. -/
theorem nearest_of_le_hundred {n : Nat} (n_le : n ≤ 100) : nearest n = n := by
  have below : (n : Rat) ≤ 100 := by exact_mod_cast n_le
  refine nearest_natCast (below.trans_lt ?_)
  rw [powerOfTwo_eq_zpow]
  norm_num

theorem denotes_of_le_hundred {n : Nat} (n_le : n ≤ 100) : Denotes (ofNat n) n 7 := by
  have below : (n : Rat) ≤ 100 := by exact_mod_cast n_le
  have le : (n : Rat) ≤ powerOfTwo 7 := by
    refine below.trans ?_
    rw [powerOfTwo_eq_zpow]
    norm_num
  have denotes := denotes_ofNat le (by decide) (by decide)
  rwa [nearest_of_le_hundred n_le] at denotes

end Operations

section Near

/-- What one rounding leaves of a number at least. -/
def remaining : Rat := 1 - powerOfTwo (-53)

/-- A number is another one up to the errors of some roundings. -/
structure Near (roundings : Nat) (x q : Rat) : Prop where
  nonneg : 0 ≤ q
  below : q * remaining ^ roundings ≤ x
  above : x * remaining ^ roundings ≤ q

variable {x y p q : Rat} {roundings more : Nat}

theorem remaining_pos : 0 < remaining := by
  rw [remaining, sub_pos, ← powerOfTwo_zero, powerOfTwo_lt_iff]
  decide

theorem remaining_le_one : remaining ≤ 1 := sub_le_self 1 (powerOfTwo_pos _).le

namespace Near

theorem nonneg_left (near : Near roundings x q) : 0 ≤ x :=
  (mul_nonneg near.nonneg (pow_nonneg remaining_pos.le _)).trans near.below

theorem refl (nonneg : 0 ≤ q) : Near 0 q q := ⟨nonneg, by simp, by simp⟩

theorem mono (near : Near roundings x q) (fewer : roundings ≤ more) : Near more x q := by
  have shrinks : remaining ^ more ≤ remaining ^ roundings :=
    pow_le_pow_of_le_one remaining_pos.le remaining_le_one fewer
  refine ⟨near.nonneg, ?_, ?_⟩
  · exact (mul_le_mul_of_nonneg_left shrinks near.nonneg).trans near.below
  · exact (mul_le_mul_of_nonneg_left shrinks near.nonneg_left).trans near.above

theorem trans (first : Near roundings x y) (second : Near more y q) :
    Near (roundings + more) x q := by
  have power_nonneg (n : Nat) : 0 ≤ remaining ^ n := pow_nonneg remaining_pos.le n
  refine ⟨second.nonneg, ?_, ?_⟩
  · calc
      q * remaining ^ (roundings + more) = q * remaining ^ more * remaining ^ roundings := by ring
      _ ≤ y * remaining ^ roundings :=
        mul_le_mul_of_nonneg_right second.below (power_nonneg roundings)
      _ ≤ x := first.below
  · calc
      x * remaining ^ (roundings + more) = x * remaining ^ roundings * remaining ^ more := by ring
      _ ≤ y * remaining ^ more := mul_le_mul_of_nonneg_right first.above (power_nonneg more)
      _ ≤ q := second.above

theorem mul (first : Near roundings x p) (second : Near more y q) :
    Near (roundings + more) (x * y) (p * q) := by
  have power_nonneg (n : Nat) : 0 ≤ remaining ^ n := pow_nonneg remaining_pos.le n
  refine ⟨mul_nonneg first.nonneg second.nonneg, ?_, ?_⟩
  · calc
      p * q * remaining ^ (roundings + more)
          = p * remaining ^ roundings * (q * remaining ^ more) := by ring
      _ ≤ x * y := mul_le_mul first.below second.below
        (mul_nonneg second.nonneg (power_nonneg more)) first.nonneg_left
  · calc
      x * y * remaining ^ (roundings + more)
          = x * remaining ^ roundings * (y * remaining ^ more) := by ring
      _ ≤ p * q := mul_le_mul first.above second.above
        (mul_nonneg second.nonneg_left (power_nonneg more)) first.nonneg

theorem inv (near : Near roundings x q) (q_pos : 0 < q) : Near roundings x⁻¹ q⁻¹ := by
  have x_pos : 0 < x := (mul_pos q_pos (pow_pos remaining_pos roundings)).trans_le near.below
  refine ⟨inv_nonneg.mpr near.nonneg, ?_, ?_⟩
  · rw [inv_mul_le_iff₀ q_pos, ← div_eq_mul_inv, le_div_iff₀ x_pos, mul_comm]
    exact near.above
  · rw [inv_mul_le_iff₀ x_pos, ← div_eq_mul_inv, le_div_iff₀ q_pos, mul_comm]
    exact near.below

theorem div (first : Near roundings x p) (second : Near more y q) (q_pos : 0 < q) :
    Near (roundings + more) (x / y) (p / q) := by
  rw [div_eq_mul_inv, div_eq_mul_inv]
  exact first.mul (second.inv q_pos)

theorem add (first : Near roundings x p) (second : Near roundings y q) :
    Near roundings (x + y) (p + q) := by
  refine ⟨add_nonneg first.nonneg second.nonneg, ?_, ?_⟩
  · rw [add_mul]
    exact add_le_add first.below second.below
  · rw [add_mul]
    exact add_le_add first.above second.above

end Near

/-- From here on the spacing is a fixed fraction of the number. -/
def leastNormal : Rat := powerOfTwo (-1022)

theorem leastNormal_pos : 0 < leastNormal := powerOfTwo_pos _

theorem leastNormal_le_one : leastNormal ≤ 1 := by
  rw [leastNormal, ← powerOfTwo_zero, powerOfTwo_le_iff]
  decide

theorem leastNormal_le_nearest (normal : leastNormal ≤ q) : leastNormal ≤ nearest q :=
  powerOfTwo_le_nearest (by decide) normal

theorem near_nearest (normal : leastNormal ≤ q) : Near 1 (nearest q) q := by
  have pos := leastNormal_pos.trans_le normal
  have bounds := abs_le.mp (abs_nearest_sub_le pos.le)
  have step_le : spacing q ≤ q * powerOfTwo (-52) := by
    have large : -1022 < binaryExponent q + 1 :=
      powerOfTwo_lt_iff.mp (normal.trans_lt (binaryExponent_spec pos).2)
    have exponent_eq : spacingExponent q = binaryExponent q + (-52) := by
      rw [spacingExponent, if_neg pos.ne']
      omega
    rw [spacing_eq_powerOfTwo, exponent_eq, powerOfTwo_add]
    exact mul_le_mul_of_nonneg_right (binaryExponent_spec pos).1 (powerOfTwo_pos _).le
  have double_eq : powerOfTwo (-52) = powerOfTwo (-53) * 2 := by
    rw [← powerOfTwo_one, ← powerOfTwo_add]
    rfl
  have moved : spacing q / 2 ≤ q * powerOfTwo (-53) := by
    rw [double_eq] at step_le
    linarith
  refine ⟨pos.le, ?_, ?_⟩
  · rw [pow_one, remaining]
    linarith [bounds.1]
  · rw [pow_one, remaining]
    set tiny := powerOfTwo (-53)
    calc
      nearest q * (1 - tiny) ≤ (q + q * tiny) * (1 - tiny) :=
        mul_le_mul_of_nonneg_right (by linarith [bounds.2]) remaining_pos.le
      _ = q - q * tiny ^ 2 := by ring
      _ ≤ q := sub_le_self q (mul_nonneg pos.le (sq_nonneg tiny))

theorem Near.rounded (near : Near roundings x q) (normal : leastNormal ≤ x) :
    Near (roundings + 1) (nearest x) q :=
  ((near_nearest normal).trans near).mono (by omega)

end Near

end LiveScore.Binary64
