import Mathlib.Tactic.Positivity
import AttributeRules.Proofs.Binary64.Order

/-!
# Rounding a ratio to a magnitude

A ratio is rounded in two steps. Its exponent is found first, from the logarithms
of its two parts, and then the ratio is counted in units of that power of two and
rounded to a natural number. The second step decides between the magnitudes of
one block only, and it has to be shown that no magnitude of another block would
have been nearer.

What is rounded to is preferred to all other candidates (`Binary64.RoundsTo`): it
is nearer than they are, or as near and even. That is said of natural numbers
(`Binary64.roundsTo_roundRatio`), carried over to a block, whose magnitudes are
worth natural numbers of the same step, and extended to all blocks by the order of
their worth (`Binary64.roundsTo_units_block`). The exponent meets the conditions
for this (`Binary64.roundingExponent_spec`), so that a ratio is rounded among all
magnitudes, with those beyond infinity counted in
(`Binary64.exists_roundsTo_nearest`).
-/

namespace AttributeRules

namespace Binary64

/-! ## Preferring one candidate to another -/

/-- Below `q`, what is greater is nearer. -/
theorem dist_lt_of_lt_of_le {q a b : ℚ} (hab : a < b) (hbq : b ≤ q) : |b - q| < |a - q| := by
  rw [abs_of_nonpos (by linarith), abs_of_neg (by linarith)]
  linarith

/-- Above `q`, what is less is nearer. -/
theorem dist_lt_of_le_of_lt {q a b : ℚ} (hqb : q ≤ b) (hba : b < a) : |b - q| < |a - q| := by
  rw [abs_of_nonneg (by linarith), abs_of_pos (by linarith)]
  linarith

/-- Whether rounding `q` takes the candidate `a` and not `b`: it is nearer, or as
near and the even one. -/
def Preferred (even : Prop) (q a b : ℚ) : Prop :=
  |a - q| < |b - q| ∨ |a - q| = |b - q| ∧ even

/-- **Of the candidates with values `value 0`, `value 1`, …, rounding `q` gives
the `m`-th**: it is preferred to every other. -/
def RoundsTo (value : ℕ → ℚ) (q : ℚ) (m : ℕ) : Prop :=
  ∀ n, n ≠ m → Preferred (m % 2 = 0) q (value m) (value n)

namespace Preferred

variable {even : Prop} {q a b : ℚ}

theorem le (h : Preferred even q a b) : |a - q| ≤ |b - q| := h.elim le_of_lt fun h => h.1.le

/-- Which candidate is preferred does not depend on the unit of measurement. -/
theorem mul_right (h : Preferred even q a b) {c : ℚ} (hc : 0 < c) :
    Preferred even (q * c) (a * c) (b * c) := by
  have hscale : ∀ t, |t * c - q * c| = |t - q| * c := fun t => by
    rw [← sub_mul, abs_mul, abs_of_pos hc]
  unfold Preferred
  rw [hscale, hscale, mul_lt_mul_iff_left₀ hc, mul_left_inj' hc.ne']
  exact h

end Preferred

namespace RoundsTo

variable {value : ℕ → ℚ} {q : ℚ} {m : ℕ}

theorem le (h : RoundsTo value q m) (n : ℕ) : |value m - q| ≤ |value n - q| := by
  by_cases hn : n = m
  · rw [hn]
  · exact (h n hn).le

/-- **Candidates may be cut off at a bound**, which is then taken instead of all
above it. -/
theorem preferred_min (h : RoundsTo value q m) (hmono : StrictMono value) {bound n : ℕ}
    (hn : n ≤ bound) (hne : n ≠ min m bound) :
    Preferred (min m bound % 2 = 0) q (value (min m bound)) (value n) := by
  obtain hm | hm := le_or_gt m bound
  · rw [min_eq_left hm] at hne ⊢
    exact h n hne
  · rw [min_eq_right hm.le] at hne ⊢
    have hbelow : value n < value bound := hmono (lt_of_le_of_ne hn hne)
    -- what is rounded to something above the bound is itself above it
    have hq : value bound < q := by
      by_contra hq
      exact (dist_lt_of_le_of_lt (not_lt.1 hq) (hmono hm)).not_ge (h.le bound)
    exact .inl (dist_lt_of_lt_of_le hbelow hq.le)

end RoundsTo

/-! ## Rounding to a natural number -/

/-- A natural number that is off by a half at most, and by a half only if it is
even, is what is rounded to. -/
theorem roundsTo_of_le_half {q : ℚ} {m : ℕ} (hle : |m - q| ≤ 1 / 2)
    (heven : |m - q| = 1 / 2 → m % 2 = 0) : RoundsTo Nat.cast q m := by
  intro n hne
  have hgap : (1 : ℚ) ≤ |(n : ℚ) - m| := by
    have hint : (1 : ℤ) ≤ |(n : ℤ) - m| := Int.one_le_abs (by omega)
    exact_mod_cast hint
  have htriangle : |(n : ℚ) - m| ≤ |n - q| + |m - q| := by
    rw [abs_sub_comm (m : ℚ) q]
    exact abs_sub_le ..
  obtain hlt | heq := (show |(m : ℚ) - q| ≤ |n - q| by linarith).lt_or_eq
  · exact .inl hlt
  · exact .inr ⟨heq, heven (by linarith)⟩

/-- What a rounded ratio is off by, counted in parts of one over the
denominator. -/
theorem roundRatio_off (num : ℕ) {den : ℕ} (hden : 0 < den) :
    ∃ off : ℤ, (roundRatio num den : ℤ) * den = num + off ∧ 2 * off.natAbs ≤ den
      ∧ (2 * off.natAbs = den → roundRatio num den % 2 = 0) := by
  have hmod : num % den < den := Nat.mod_lt num hden
  have hdivision : ((num / den : ℕ) : ℤ) * den + (num % den : ℕ) = num := by
    exact_mod_cast Nat.div_add_mod' num den
  by_cases hup : den < 2 * (num % den) ∨ 2 * (num % den) = den ∧ num / den % 2 = 1
  · have hround : roundRatio num den = num / den + 1 := if_pos hup
    rw [hround]
    refine ⟨den - (num % den : ℕ), ?_, by omega, by omega⟩
    rw [Nat.cast_succ]
    linarith
  · have hround : roundRatio num den = num / den := if_neg hup
    rw [hround]
    exact ⟨-(num % den : ℕ), by linarith, by omega, by omega⟩

/-- **A ratio is rounded to the nearest natural number**, the even one of two. -/
theorem roundsTo_roundRatio {num den : ℕ} (hden : 0 < den) :
    RoundsTo Nat.cast (num / den) (roundRatio num den) := by
  have hpos : (0 : ℚ) < den := Nat.cast_pos.2 hden
  obtain ⟨off, hoff, hle, heven⟩ := roundRatio_off num hden
  have hdist : |(roundRatio num den : ℚ) - num / den| = off.natAbs / den := by
    have hoff' : (roundRatio num den : ℚ) * den = num + off := by exact_mod_cast hoff
    rw [eq_div_iff hpos.ne', ← abs_of_pos hpos, ← abs_mul, abs_of_pos hpos, sub_mul, hoff',
      div_mul_cancel₀ _ hpos.ne', add_sub_cancel_left, Nat.cast_natAbs, Int.cast_abs]
  refine roundsTo_of_le_half ?_ fun htie => heven ?_
  · rw [hdist, div_le_div_iff₀ hpos two_pos, one_mul, mul_comm]
    exact_mod_cast hle
  · rw [hdist, div_eq_div_iff hpos.ne' two_ne_zero, one_mul, mul_comm] at htie
    exact_mod_cast htie

/-! ## Rounding to a magnitude -/

section Block

variable {x : ℚ} {e r : ℕ} (hlow : e = 0 ∨ exponentWeight ≤ x) (hhigh : x < 2 * exponentWeight)
  (hround : RoundsTo Nat.cast x r)

include hlow hhigh hround

/-- Rounding does not leave the block. -/
theorem roundsTo_mem_block : (e = 0 ∨ exponentWeight ≤ r) ∧ r ≤ 2 * exponentWeight := by
  constructor
  · refine hlow.imp_right fun hx => ?_
    by_contra hr
    have hr' : (r : ℚ) < exponentWeight := by exact_mod_cast not_le.1 hr
    exact (dist_lt_of_lt_of_le hr' hx).not_ge (hround.le exponentWeight)
  · by_contra hr
    have hr' : ((2 * exponentWeight : ℕ) : ℚ) < r := by exact_mod_cast not_le.1 hr
    have hhigh' : x < ((2 * exponentWeight : ℕ) : ℚ) := by exact_mod_cast hhigh
    exact (dist_lt_of_le_of_lt hhigh'.le hr').not_ge (hround.le (2 * exponentWeight))

/-- **What is rounded in its block is rounded among all magnitudes**, for the
magnitudes of other blocks are farther away than the ends of this one. -/
theorem roundsTo_units_block :
    RoundsTo (fun n => units n) (x * 2 ^ e) (e * exponentWeight + r) := by
  intro n hne
  obtain ⟨hrlow, hrhigh⟩ := roundsTo_mem_block hlow hhigh hround
  have hscale : (0 : ℚ) < 2 ^ e := by positivity
  have hunits : ∀ {j : ℕ}, (e = 0 ∨ exponentWeight ≤ j) → j ≤ 2 * exponentWeight →
      (units (e * exponentWeight + j) : ℚ) = j * 2 ^ e := fun hj hj' => by
    rw [units_block hj hj', Nat.cast_mul, Nat.cast_pow, Nat.cast_ofNat]
  have hclosest : ∀ j : ℕ, |(r : ℚ) * 2 ^ e - x * 2 ^ e| ≤ |j * 2 ^ e - x * 2 ^ e| := fun j => by
    rw [← sub_mul, ← sub_mul, abs_mul, abs_mul]
    exact mul_le_mul_of_nonneg_right (hround.le j) (abs_nonneg _)
  have heven : (e * exponentWeight + r) % 2 = 0 ↔ r % 2 = 0 := by
    unfold exponentWeight
    omega
  show Preferred _ _ (units (e * exponentWeight + r)) (units n)
  rw [heven, hunits hrlow hrhigh]
  obtain ⟨he, hbelow⟩ | habove | ⟨hstart, hend⟩ :
      (e ≠ 0 ∧ n < e * exponentWeight + exponentWeight)
        ∨ e * exponentWeight + 2 * exponentWeight < n
        ∨ (e = 0 ∨ e * exponentWeight + exponentWeight ≤ n)
          ∧ n ≤ e * exponentWeight + 2 * exponentWeight := by omega
  · have hlt : (units n : ℚ) < exponentWeight * 2 ^ e := by
      rw [← hunits (.inr le_rfl) (by omega)]
      exact_mod_cast units_strictMono hbelow
    have hle : exponentWeight * 2 ^ e ≤ x * 2 ^ e :=
      mul_le_mul_of_nonneg_right (hlow.resolve_left he) hscale.le
    exact .inl ((hclosest exponentWeight).trans_lt (dist_lt_of_lt_of_le hlt hle))
  · have hlt : ((2 * exponentWeight : ℕ) : ℚ) * 2 ^ e < units n := by
      rw [← hunits (.inr (by omega)) le_rfl]
      exact_mod_cast units_strictMono habove
    have hle : x * 2 ^ e < ((2 * exponentWeight : ℕ) : ℚ) * 2 ^ e :=
      mul_lt_mul_of_pos_right (by exact_mod_cast hhigh) hscale
    exact .inl ((hclosest (2 * exponentWeight)).trans_lt (dist_lt_of_le_of_lt hle.le hlt))
  · obtain ⟨j, rfl⟩ : ∃ j, n = e * exponentWeight + j := ⟨n - e * exponentWeight, by
      rcases hstart with rfl | hstart <;> omega⟩
    rw [hunits (by omega) (by omega)]
    exact (hround j (by omega)).mul_right hscale

end Block

/-! ## The exponent -/

theorem two_zpow_eq (e : ℤ) : (2 : ℚ) ^ e = 2 ^ e.toNat / 2 ^ (-e).toNat := by
  conv_lhs => rw [← Int.toNat_sub_toNat_neg e]
  rw [zpow_sub₀ two_ne_zero, zpow_natCast, zpow_natCast]

theorem inUnits_ratio (num den : ℕ) (e : ℤ) :
    ((inUnits num den e).1 : ℚ) / (inUnits num den e).2 = num / den / 2 ^ e := by
  rw [two_zpow_eq, inUnits, Nat.pow_eq, Nat.pow_eq]
  push_cast
  rw [div_div_eq_mul_div, div_mul_eq_mul_div, div_div]

theorem inUnits_den_pos (num : ℕ) {den : ℕ} (hden : den ≠ 0) (e : ℤ) :
    0 < (inUnits num den e).2 :=
  Nat.mul_pos (Nat.pos_of_ne_zero hden) (Nat.two_pow_pos _)

/-- A ratio is rounded in units of `2 ^ e`. -/
theorem roundsTo_inUnits (num : ℕ) {den : ℕ} (hden : den ≠ 0) (e : ℤ) :
    RoundsTo Nat.cast (num / den / 2 ^ e)
      (roundRatio (inUnits num den e).1 (inUnits num den e).2) := by
  rw [← inUnits_ratio]
  exact roundsTo_roundRatio (inUnits_den_pos num hden e)

theorem le_inUnits_div_iff {num den k : ℕ} (hden : den ≠ 0) (e : ℤ) :
    k ≤ (inUnits num den e).1 / (inUnits num den e).2 ↔ k * (2 : ℚ) ^ e ≤ num / den := by
  have hpos := inUnits_den_pos num hden e
  rw [Nat.le_div_iff_mul_le hpos, ← le_div_iff₀ (by positivity), ← inUnits_ratio,
    le_div_iff₀ (Nat.cast_pos.2 hpos)]
  exact_mod_cast Iff.rfl

/-- The logarithms of a ratio, taken apart, tell its exponent up to one. -/
theorem ratio_log2_bounds {num den : ℕ} (hnum : num ≠ 0) (hden : den ≠ 0) :
    (2 : ℚ) ^ ((num.log2 : ℤ) - den.log2 - 1) ≤ num / den
      ∧ (num / den : ℚ) < 2 ^ ((num.log2 : ℤ) - den.log2 + 1) := by
  have hpos : (0 : ℚ) < den := by positivity
  have hlow : ∀ {n : ℕ}, n ≠ 0 → (2 : ℚ) ^ (n.log2 : ℤ) ≤ n := fun hn => by
    rw [zpow_natCast]
    exact_mod_cast Nat.log2_self_le hn
  have hhigh : ∀ n : ℕ, (n : ℚ) < 2 ^ ((n.log2 : ℤ) + 1) := fun n => by
    exact_mod_cast @Nat.lt_log2_self n
  constructor
  · rw [le_div_iff₀ hpos]
    calc (2 : ℚ) ^ ((num.log2 : ℤ) - den.log2 - 1) * den
        ≤ 2 ^ ((num.log2 : ℤ) - den.log2 - 1) * 2 ^ ((den.log2 : ℤ) + 1) :=
          mul_le_mul_of_nonneg_left (hhigh den).le (by positivity)
      _ = 2 ^ (num.log2 : ℤ) := by
          rw [← zpow_add₀ two_ne_zero]
          congr 1
          ring
      _ ≤ num := hlow hnum
  · rw [div_lt_iff₀ hpos]
    calc (num : ℚ) < 2 ^ ((num.log2 : ℤ) + 1) := hhigh num
      _ = 2 ^ ((num.log2 : ℤ) - den.log2 + 1) * 2 ^ (den.log2 : ℤ) := by
          rw [← zpow_add₀ two_ne_zero]
          congr 1
          ring
      _ ≤ 2 ^ ((num.log2 : ℤ) - den.log2 + 1) * den :=
          mul_le_mul_of_nonneg_left (hlow hden) (by positivity)

theorem two_mul_exponentWeight_eq : (2 * exponentWeight : ℚ) = 2 ^ (53 : ℤ) := by
  rw [exponentWeight_eq, ← zpow_one_add₀ two_ne_zero]
  rfl

/-- **The exponent puts a ratio into the block that it belongs to.** -/
theorem roundingExponent_spec {num den : ℕ} (hnum : num ≠ 0) (hden : den ≠ 0) :
    -1074 ≤ roundingExponent num den
      ∧ (num / den : ℚ) < 2 ^ (roundingExponent num den + 53)
      ∧ (roundingExponent num den = -1074
        ∨ (2 : ℚ) ^ (roundingExponent num den + 52) ≤ num / den) := by
  obtain ⟨hlower, hupper⟩ := ratio_log2_bounds hnum hden
  obtain ⟨log, hlog⟩ : ∃ log : ℤ, log = (num.log2 : ℤ) - den.log2 := ⟨_, rfl⟩
  obtain ⟨low, hlow⟩ : ∃ low : ℤ, low = max (log - 53) (-1074) := ⟨_, rfl⟩
  rw [← hlog] at hlower hupper
  have htwo : (1 : ℚ) ≤ 2 := one_le_two
  have hstep : 2 * exponentWeight ≤ (inUnits num den low).1 / (inUnits num den low).2
      ↔ (2 : ℚ) ^ (low + 53) ≤ num / den := by
    rw [le_inUnits_div_iff hden, Nat.cast_mul, Nat.cast_two, two_mul_exponentWeight_eq,
      ← zpow_add₀ two_ne_zero, add_comm]
  have hround : roundingExponent num den
      = if 2 * exponentWeight ≤ (inUnits num den low).1 / (inUnits num den low).2 then low + 1
        else low := by
    rw [hlow, hlog]
    rfl
  rw [hround]
  split
  · next h =>
    refine ⟨by omega, hupper.trans_le (zpow_le_zpow_right₀ htwo (by omega)), .inr ?_⟩
    have heq : low + 1 + 52 = low + 53 := by ring
    rw [heq]
    exact hstep.1 h
  · next h =>
    refine ⟨by omega, not_le.1 (hstep.not.1 h), ?_⟩
    obtain hmin | hmax : low = -1074 ∨ low + 52 = log - 1 := by omega
    · exact .inl hmin
    · exact .inr (hmax ▸ hlower)

/-! ## Rounding a ratio -/

/-- The rounded ratio is a magnitude, cut off at that of infinity. -/
theorem exists_roundsTo_nearest (num : ℕ) {den : ℕ} (hden : den ≠ 0) :
    ∃ m, nearest num den = ofMagnitude m
      ∧ RoundsTo (fun n => units n) (num / den / leastValue) m := by
  by_cases hnum : num = 0
  · refine ⟨0, by rw [hnum]; rfl, fun n hn => .inl ?_⟩
    have hpos : (0 : ℚ) < units n := by
      exact_mod_cast units_strictMono (Nat.pos_of_ne_zero hn)
    simpa [hnum] using hpos
  · obtain ⟨hleast, hhigh, hlow⟩ := roundingExponent_spec hnum hden
    have hnearest : nearest num den = ofMagnitude ((roundingExponent num den + 1074).toNat
        * exponentWeight + roundRatio (inUnits num den (roundingExponent num den)).1
          (inUnits num den (roundingExponent num den)).2) := by
      rw [nearest, if_neg hnum]
    generalize roundingExponent num den = exponent at hleast hhigh hlow hnearest
    obtain ⟨e, he⟩ := Int.eq_ofNat_of_zero_le (show 0 ≤ exponent + 1074 by omega)
    obtain rfl : exponent = e + -1074 := by omega
    have hpos : (0 : ℚ) < 2 ^ ((e : ℤ) + -1074) := zpow_pos two_pos _
    have hscale : num / den / 2 ^ ((e : ℤ) + -1074) * (2 : ℚ) ^ e = num / den / leastValue := by
      rw [zpow_add₀ two_ne_zero, zpow_natCast, ← leastValue, ← div_div, div_right_comm,
        div_mul_cancel₀ _ (by positivity)]
    rw [zpow_add₀ two_ne_zero, mul_comm] at hhigh hlow
    rw [he, Int.toNat_natCast] at hnearest
    refine ⟨_, hnearest, hscale ▸
      roundsTo_units_block (hlow.imp (by omega) fun h => ?_) ?_ (roundsTo_inUnits num hden _)⟩
    · rwa [le_div_iff₀ hpos, exponentWeight_eq]
    · rwa [div_lt_iff₀ hpos, two_mul_exponentWeight_eq]

end Binary64

end AttributeRules
