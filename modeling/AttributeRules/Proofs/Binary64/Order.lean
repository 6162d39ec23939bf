import Mathlib.Algebra.Order.Field.Power
import Mathlib.Order.Monotone.Odd
import Mathlib.Tactic.Linarith
import Mathlib.Tactic.Ring
import AttributeRules.Binary64.Basic

/-!
# The values of floating-point numbers

The bits of a number denote its significand times a power of two, with a sign
(`Binary64.toRat`). Comparing two numbers by their bits compares what they denote
(`Binary64.lt_iff`), and this is where it is said why.

Every value is a multiple of the least positive one, `2 ^ (-1074)`, so a magnitude
is worth a natural number of such units (`Binary64.units`). Magnitudes come in
blocks, one for each exponent, and along a block the worth grows by the same step.
A block starts with the worth that the one before it would have reached next,
which is why the bits can be counted through as if they were one number
(`Binary64.units_block`).

The infinities are numbers here. Their bits come next after those of the largest
finite values and denote `2 ^ 1024` with a sign, which is what the next step would
be worth; so a value is finite exactly if it is below that
(`Binary64.isFinite_iff_abs_toRat_lt`). A value that is not a number denotes
nothing, and what `Binary64.toRat` says of it is never used.
-/

namespace AttributeRules

namespace Binary64

/-! ## Magnitudes -/

/-- What a magnitude is worth, in units of the least positive value. -/
def units (n : ℕ) : ℕ :=
  if n / exponentWeight = 0 then n % exponentWeight
  else (n % exponentWeight + exponentWeight) * 2 ^ (n / exponentWeight - 1)

theorem units_of_lt {j : ℕ} (h : j < exponentWeight) : units j = j := by
  rw [units, Nat.div_eq_of_lt h, if_pos rfl, Nat.mod_eq_of_lt h]

theorem units_of_le_of_lt (e : ℕ) {j : ℕ} (hlow : exponentWeight ≤ j)
    (hhigh : j < 2 * exponentWeight) : units (e * exponentWeight + j) = j * 2 ^ e := by
  have hdiv : (e * exponentWeight + j) / exponentWeight = e + 1 := by
    unfold exponentWeight at *
    omega
  have hmod : (e * exponentWeight + j) % exponentWeight + exponentWeight = j := by
    unfold exponentWeight at *
    omega
  rw [units, hdiv, hmod, if_neg (Nat.succ_ne_zero e), Nat.add_sub_cancel]

/-- **Along a block the worth grows by equal steps**, also into the first
magnitude of the next block. -/
theorem units_block {e j : ℕ} (hlow : e = 0 ∨ exponentWeight ≤ j)
    (hhigh : j ≤ 2 * exponentWeight) : units (e * exponentWeight + j) = j * 2 ^ e := by
  obtain ⟨rfl, hj⟩ | ⟨hj, hj'⟩ | rfl : (e = 0 ∧ j < exponentWeight)
      ∨ (exponentWeight ≤ j ∧ j < 2 * exponentWeight) ∨ j = 2 * exponentWeight := by omega
  · rw [Nat.zero_mul, Nat.zero_add, units_of_lt hj, pow_zero, mul_one]
  · exact units_of_le_of_lt e hj hj'
  · have hnext : e * exponentWeight + 2 * exponentWeight
        = (e + 1) * exponentWeight + exponentWeight := by ring
    rw [hnext, units_of_le_of_lt (e + 1) le_rfl (by decide)]
    ring

/-- Every magnitude is in a block. -/
theorem exists_block (n : ℕ) :
    ∃ e j, n = e * exponentWeight + j ∧ (e = 0 ∨ exponentWeight ≤ j) ∧ j < 2 * exponentWeight := by
  refine ⟨n / exponentWeight - 1, n - (n / exponentWeight - 1) * exponentWeight, ?_⟩
  unfold exponentWeight
  omega

/-- **A greater magnitude is worth more.** -/
theorem units_strictMono : StrictMono units := by
  refine strictMono_nat_of_lt_succ fun n => ?_
  obtain ⟨e, j, rfl, hlow, hhigh⟩ := exists_block n
  have hnext : units (e * exponentWeight + (j + 1)) = (j + 1) * 2 ^ e :=
    units_block (by omega) hhigh
  rw [add_assoc, hnext, units_block hlow hhigh.le]
  exact Nat.mul_lt_mul_of_pos_right (Nat.lt_succ_self j) (Nat.two_pow_pos e)

@[simp] theorem units_zero : units 0 = 0 := rfl

/-- What a magnitude with a sign is worth. -/
def signedUnits (k : ℤ) : ℤ := k.sign * units k.natAbs

@[simp] theorem signedUnits_neg (k : ℤ) : signedUnits (-k) = -signedUnits k := by
  rw [signedUnits, Int.sign_neg, Int.natAbs_neg, neg_mul, signedUnits]

@[simp] theorem signedUnits_natCast (n : ℕ) : signedUnits n = units n := by
  rw [signedUnits, Int.natAbs_natCast]
  cases n with
  | zero => rfl
  | succ n => rw [Int.sign_natCast_of_ne_zero (Nat.succ_ne_zero n), one_mul]

/-- The worth with a sign is ordered like the magnitudes with a sign. -/
theorem signedUnits_lt_iff {a b : ℤ} : signedUnits a < signedUnits b ↔ a < b := by
  have hmono : StrictMono signedUnits := by
    refine strictMono_of_odd_strictMonoOn_nonneg signedUnits_neg fun a ha b hb hab => ?_
    lift a to ℕ using ha
    lift b to ℕ using hb
    rw [signedUnits_natCast, signedUnits_natCast]
    exact_mod_cast units_strictMono (by exact_mod_cast hab)
  exact hmono.lt_iff_lt

/-! ## Values -/

/-- The least positive value. -/
def leastValue : ℚ := 2 ^ (-1074 : ℤ)

theorem leastValue_pos : 0 < leastValue := zpow_pos two_pos _

theorem units_mul_lt_iff {m n : ℕ} :
    (units m : ℚ) * leastValue < units n * leastValue ↔ m < n := by
  rw [mul_lt_mul_iff_left₀ leastValue_pos, Nat.cast_lt, units_strictMono.lt_iff_lt]

theorem units_mul_le_iff {m n : ℕ} :
    (units m : ℚ) * leastValue ≤ units n * leastValue ↔ m ≤ n := by
  rw [← not_lt, units_mul_lt_iff, not_lt]

theorem units_mul_inj {m n : ℕ} :
    (units m : ℚ) * leastValue = units n * leastValue ↔ m = n := by
  rw [mul_left_inj' leastValue_pos.ne', Nat.cast_inj, units_strictMono.injective.eq_iff]

/-- **The value that the bits denote.** -/
def toRat (x : Binary64) : ℚ :=
  (if x.isNegative then -1 else 1) * (x.decode.1 * 2 ^ x.decode.2)

/-- Without its sign, a value is worth its magnitude. -/
theorem decode_eq_units (x : Binary64) :
    (x.decode.1 : ℚ) * 2 ^ x.decode.2 = units x.magnitude * leastValue := by
  unfold leastValue
  by_cases h : x.magnitude / exponentWeight = 0
  · have hdecode : x.decode = (x.magnitude % exponentWeight, -1074) := if_pos h
    rw [hdecode, units, if_pos h]
  · have hdecode : x.decode
        = (x.magnitude % exponentWeight + exponentWeight,
          ((x.magnitude / exponentWeight : ℕ) : ℤ) - 1075) := if_neg h
    have hexponent : ((x.magnitude / exponentWeight : ℕ) : ℤ) - 1075
        = ((x.magnitude / exponentWeight - 1 : ℕ) : ℤ) + -1074 := by
      rw [Nat.cast_pred (Nat.pos_of_ne_zero h)]
      ring
    rw [hdecode, hexponent, units, if_neg h, zpow_add₀ two_ne_zero, zpow_natCast, ← mul_assoc,
      Nat.cast_mul, Nat.cast_pow, Nat.cast_ofNat]

/-- **The value of a number is worth its rank.** -/
theorem toRat_eq (x : Binary64) : x.toRat = signedUnits x.rank * leastValue := by
  rw [toRat, decode_eq_units, rank]
  cases x.isNegative <;> simp

theorem abs_toRat (x : Binary64) : |x.toRat| = units x.magnitude * leastValue := by
  rw [toRat, decode_eq_units, abs_mul, abs_of_nonneg (a := units _ * leastValue)
    (mul_nonneg (Nat.cast_nonneg _) leastValue_pos.le)]
  cases x.isNegative <;> simp

theorem toRat_lt_iff_rank_lt {x y : Binary64} : x.toRat < y.toRat ↔ x.rank < y.rank := by
  rw [toRat_eq, toRat_eq, mul_lt_mul_iff_left₀ leastValue_pos, Int.cast_lt, signedUnits_lt_iff]

/-- **Comparing bits compares the values they denote**, and nothing is less or
greater than what is not a number. -/
theorem lt_iff {x y : Binary64} :
    x.lt y = true ↔ x.isNumber = true ∧ y.isNumber = true ∧ x.toRat < y.toRat := by
  rw [lt, Bool.and_eq_true_iff, Bool.and_eq_true_iff, decide_eq_true_iff, toRat_lt_iff_rank_lt,
    and_assoc]

theorem isNumber_iff {x : Binary64} : x.isNumber = true ↔ x.magnitude ≤ infiniteMagnitude :=
  decide_eq_true_iff

theorem exponentWeight_eq : (exponentWeight : ℚ) = 2 ^ (52 : ℤ) := by
  norm_num [exponentWeight]

/-- Infinity is worth `2 ^ 1024`. -/
theorem units_infiniteMagnitude : units infiniteMagnitude * leastValue = 2 ^ (1024 : ℤ) := by
  have hblock : infiniteMagnitude = 2046 * exponentWeight + exponentWeight := rfl
  rw [hblock, units_block (.inr le_rfl) (by omega), Nat.cast_mul, Nat.cast_pow, Nat.cast_ofNat,
    ← zpow_natCast, exponentWeight_eq, leastValue, ← zpow_add₀ two_ne_zero, ← zpow_add₀ two_ne_zero]
  rfl

/-- **A value is finite exactly if it is below `2 ^ 1024`**, whatever its sign. -/
theorem isFinite_iff_abs_toRat_lt {x : Binary64} :
    x.isFinite = true ↔ |x.toRat| < 2 ^ (1024 : ℤ) := by
  rw [abs_toRat, ← units_infiniteMagnitude, units_mul_lt_iff, isFinite, decide_eq_true_iff]

/-! ## Signs -/

theorem toNat_bits_neg (x : Binary64) : x.neg.bits.toNat = x.bits.toNat ^^^ 2 ^ 63 :=
  UInt64.toNat_xor ..

/-- Flipping the sign leaves the magnitude as it is. -/
@[simp] theorem magnitude_neg (x : Binary64) : x.neg.magnitude = x.magnitude := by
  have hsign : signWeight = 2 ^ 63 := rfl
  rw [magnitude, magnitude, toNat_bits_neg, hsign, Nat.xor_mod_two_pow, Nat.mod_self, Nat.xor_zero]

theorem isNegative_eq_testBit (x : Binary64) : x.isNegative = x.bits.toNat.testBit 63 := by
  have hbits : x.bits.toNat < 2 ^ 64 := x.bits.toNat_lt
  rw [isNegative, Nat.testBit_eq_decide_div_mod_eq, decide_eq_decide, signWeight]
  omega

@[simp] theorem isNegative_neg (x : Binary64) : x.neg.isNegative = !x.isNegative := by
  rw [isNegative_eq_testBit, isNegative_eq_testBit, toNat_bits_neg, Nat.testBit_xor,
    Nat.testBit_two_pow_self, Bool.xor_true]

@[simp] theorem isNumber_neg (x : Binary64) : x.neg.isNumber = x.isNumber := by
  rw [isNumber, magnitude_neg, isNumber]

/-- **Flipping the sign negates the value.** -/
@[simp] theorem toRat_neg (x : Binary64) : x.neg.toRat = -x.toRat := by
  rw [toRat, toRat, decode_eq_units, decode_eq_units, isNegative_neg, magnitude_neg]
  cases x.isNegative <;> simp

theorem toNat_bits_ofMagnitude (n : ℕ) :
    (ofMagnitude n).bits.toNat = min n infiniteMagnitude :=
  UInt64.toNat_ofNat_of_lt' ((min_le_right n infiniteMagnitude).trans_lt (by decide))

/-- A magnitude beyond the format becomes that of infinity. -/
@[simp] theorem magnitude_ofMagnitude (n : ℕ) :
    (ofMagnitude n).magnitude = min n infiniteMagnitude := by
  rw [magnitude, toNat_bits_ofMagnitude]
  exact Nat.mod_eq_of_lt ((min_le_right n infiniteMagnitude).trans_lt (by decide))

theorem isNumber_ofMagnitude (n : ℕ) : (ofMagnitude n).isNumber = true := by
  rw [isNumber_iff, magnitude_ofMagnitude]
  exact min_le_right n infiniteMagnitude

@[simp] theorem isNegative_ofMagnitude (n : ℕ) : (ofMagnitude n).isNegative = false := by
  rw [isNegative, toNat_bits_ofMagnitude, decide_eq_false_iff_not, not_le]
  exact (min_le_right n infiniteMagnitude).trans_lt (by decide)

theorem toRat_of_isNegative_eq_false {x : Binary64} (h : x.isNegative = false) :
    x.toRat = units x.magnitude * leastValue := by
  rw [toRat, decode_eq_units, h]
  simp

theorem toRat_nonpos {x : Binary64} (h : x.isNegative = true) : x.toRat ≤ 0 := by
  have habs := abs_nonneg x.toRat
  rw [abs_toRat] at habs
  rw [toRat, decode_eq_units, h]
  simpa using habs

/-! ## Ranks -/

theorem natAbs_rank (x : Binary64) : x.rank.natAbs = x.magnitude := by
  unfold rank
  split
  · rw [Int.natAbs_neg, Int.natAbs_natCast]
  · exact Int.natAbs_natCast _

@[simp] theorem rank_neg (x : Binary64) : x.neg.rank = -x.rank := by
  rw [rank, rank, isNegative_neg, magnitude_neg]
  cases x.isNegative <;> simp

theorem exists_rank_eq {k : ℤ} (hk : k.natAbs ≤ infiniteMagnitude) :
    ∃ x : Binary64, x.isNumber = true ∧ x.rank = k := by
  have hrank : (ofMagnitude k.natAbs).rank = k.natAbs := by
    rw [rank, if_neg (by simp), magnitude_ofMagnitude, min_eq_left hk]
  obtain hsign | hsign := Int.natAbs_eq k
  · exact ⟨ofMagnitude k.natAbs, isNumber_ofMagnitude _, hrank.trans hsign.symm⟩
  · refine ⟨(ofMagnitude k.natAbs).neg, by rw [isNumber_neg, isNumber_ofMagnitude], ?_⟩
    rw [rank_neg, hrank, ← hsign]

end Binary64

end AttributeRules
