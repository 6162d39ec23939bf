import AttributeRules.Proofs.Binary64.Rounding

/-!
# The nearest floating-point value

`Binary64.IsNearest x q` says that no number is nearer to `q` than `x`, and that
the last bit of `x` is zero if another one is as near. This is what rounding gives:
for ratios (`Binary64.isNearest_nearest`), and from them for integers, products
and quotients. At most one value has the property (`Binary64.IsNearest.toRat_unique`),
so it says which value that is.

Infinity takes part in this with the value `2 ^ 1024`, and it is even. So it is
taken from halfway between the largest finite value and `2 ^ 1024` on, which is
where rounding has to overflow (`Binary64.IsNearest.isFinite_iff`).

Numbers are compared with a rounded integer and not with the integer itself. Only
the number that it is rounded to can tell the difference
(`Binary64.IsNearest.toRat_lt_iff`), and up to `2 ^ 53` there is none
(`Binary64.toRat_ofInt`).
-/

namespace AttributeRules

namespace Binary64

/-- **Whether a value is the one nearest to `q`**, and the even one where two are
equally near. -/
structure IsNearest (x : Binary64) (q : ℚ) : Prop where
  /-- It is a number. -/
  isNumber : x.isNumber = true
  /-- No number is nearer. -/
  closest : ∀ y : Binary64, y.isNumber = true → |x.toRat - q| ≤ |y.toRat - q|
  /-- If another is as near, the last bit of this one is zero. -/
  even_of_tie : ∀ y : Binary64, y.isNumber = true → y.toRat ≠ x.toRat →
    |x.toRat - q| = |y.toRat - q| → x.magnitude % 2 = 0

theorem isNearest_of_preferred {x : Binary64} {q : ℚ} (hx : x.isNumber = true)
    (h : ∀ y : Binary64, y.isNumber = true → y.toRat ≠ x.toRat →
      Preferred (x.magnitude % 2 = 0) q x.toRat y.toRat) : x.IsNearest q where
  isNumber := hx
  closest y hy := by
    by_cases hne : y.toRat = x.toRat
    · rw [hne]
    · exact (h y hy hne).le
  even_of_tie y hy hne htie := ((h y hy hne).resolve_left htie.not_lt).2

section Magnitude

variable {q : ℚ} {m : ℕ} (h : RoundsTo (fun n => units n) (q / leastValue) m)

include h

/-- Among the values that are not negative, the one with the magnitude is
preferred. -/
theorem preferred_ofMagnitude {n : ℕ} (hn : n ≤ infiniteMagnitude)
    (hne : units n * leastValue ≠ (ofMagnitude m).toRat) :
    Preferred ((ofMagnitude m).magnitude % 2 = 0) q (ofMagnitude m).toRat
      (units n * leastValue) := by
  rw [toRat_of_isNegative_eq_false (isNegative_ofMagnitude m), magnitude_ofMagnitude] at hne ⊢
  have hmono : StrictMono fun n => (units n : ℚ) := Nat.strictMono_cast.comp units_strictMono
  have hpreferred := h.preferred_min hmono hn fun heq => hne (by rw [heq])
  have hscaled := hpreferred.mul_right leastValue_pos
  rwa [div_mul_cancel₀ _ leastValue_pos.ne'] at hscaled

/-- **The magnitude that is rounded to is that of the nearest value.** -/
theorem isNearest_ofMagnitude (hq : 0 ≤ q) : (ofMagnitude m).IsNearest q := by
  have hzero : 0 ≠ (ofMagnitude m).toRat →
      Preferred ((ofMagnitude m).magnitude % 2 = 0) q (ofMagnitude m).toRat 0 := by
    have hpreferred := preferred_ofMagnitude h (Nat.zero_le _)
    rwa [units_zero, Nat.cast_zero, zero_mul] at hpreferred
  refine isNearest_of_preferred (isNumber_ofMagnitude m) fun y hy hne => ?_
  cases hsign : y.isNegative with
  | false =>
    rw [toRat_of_isNegative_eq_false hsign] at hne ⊢
    exact preferred_ofMagnitude h (isNumber_iff.1 hy) hne
  | true =>
    obtain hy0 | hy0 := (toRat_nonpos hsign).eq_or_lt
    · rw [hy0] at hne ⊢
      exact hzero hne
    · -- zero is nearer than what is below it
      have hle : |(ofMagnitude m).toRat - q| ≤ |0 - q| := by
        by_cases hx : 0 = (ofMagnitude m).toRat
        · rw [← hx]
        · exact (hzero hx).le
      exact .inl (hle.trans_lt (dist_lt_of_lt_of_le hy0 hq))

end Magnitude

/-- **A ratio is rounded to the nearest value.** -/
theorem isNearest_nearest (num : ℕ) {den : ℕ} (hden : den ≠ 0) :
    (nearest num den).IsNearest (num / den) := by
  obtain ⟨m, hnearest, hround⟩ := exists_roundsTo_nearest num hden
  rw [hnearest]
  exact isNearest_ofMagnitude hround (by positivity)

/-! ## Signs and integers -/

namespace IsNearest

variable {x y : Binary64} {q : ℚ}

/-- Rounding does not depend on the sign. -/
theorem neg (h : x.IsNearest q) : x.neg.IsNearest (-q) := by
  have hdist : ∀ y : Binary64, |y.neg.toRat - -q| = |y.toRat - q| := fun y => by
    rw [toRat_neg, neg_sub_neg, abs_sub_comm]
  have hback : ∀ y : Binary64, |y.toRat - -q| = |y.neg.toRat - q| := fun y => by
    rw [toRat_neg, ← abs_neg]
    congr 1
    ring
  refine ⟨by rw [isNumber_neg, h.isNumber], fun y hy => ?_, fun y hy hne htie => ?_⟩
  · rw [hdist, hback]
    exact h.closest y.neg (by rwa [isNumber_neg])
  · rw [hdist, hback] at htie
    rw [magnitude_neg]
    refine h.even_of_tie y.neg (by rwa [isNumber_neg]) (fun heq => hne ?_) htie
    rw [toRat_neg, ← heq, toRat_neg, neg_neg]

/-- **Comparing a number with the nearest value compares it with what was
rounded**, but for the number that is this value. -/
theorem toRat_lt_iff (h : x.IsNearest q) (hy : y.isNumber = true) :
    x.toRat < y.toRat ↔ q < y.toRat ∧ y.toRat ≠ x.toRat := by
  have hclosest := h.closest y hy
  constructor
  · intro hlt
    refine ⟨?_, hlt.ne'⟩
    by_contra hq
    exact (dist_lt_of_lt_of_le hlt (not_lt.1 hq)).not_ge hclosest
  · rintro ⟨hq, hne⟩
    by_contra hlt
    have hlt' : y.toRat < x.toRat := lt_of_le_of_ne (not_lt.1 hlt) hne
    exact (dist_lt_of_le_of_lt hq.le hlt').not_ge hclosest

theorem lt_toRat_iff (h : x.IsNearest q) (hy : y.isNumber = true) :
    y.toRat < x.toRat ↔ y.toRat < q ∧ y.toRat ≠ x.toRat := by
  have hneg := h.neg.toRat_lt_iff (y := y.neg) (by rwa [isNumber_neg])
  rw [toRat_neg, toRat_neg, neg_lt_neg_iff, neg_lt_neg_iff] at hneg
  rw [hneg, Ne, neg_inj]

end IsNearest

/-- **An integer is rounded to the nearest value.** -/
theorem isNearest_ofInt (k : ℤ) : (ofInt k).IsNearest k := by
  have hnat : ∀ n : ℕ, (ofNat n).IsNearest n := fun n => by
    have h := isNearest_nearest n one_ne_zero
    rwa [Nat.cast_one, div_one] at h
  cases k with
  | ofNat n => exact_mod_cast hnat n
  | negSucc n =>
    have h := (hnat (n + 1)).neg
    rw [Int.cast_negSucc]
    exact h

/-- An integer is less than a number, once rounded, exactly if it is less than it
and is not rounded to it. -/
theorem ofInt_lt_iff {k : ℤ} {x : Binary64} :
    (ofInt k).lt x = true
      ↔ x.isNumber = true ∧ k < x.toRat ∧ x.toRat ≠ (ofInt k).toRat := by
  rw [lt_iff, and_iff_right (isNearest_ofInt k).isNumber]
  exact and_congr_right (isNearest_ofInt k).toRat_lt_iff

theorem lt_ofInt_iff {k : ℤ} {x : Binary64} :
    x.lt (ofInt k) = true
      ↔ x.isNumber = true ∧ x.toRat < k ∧ x.toRat ≠ (ofInt k).toRat := by
  rw [lt_iff, and_iff_right (isNearest_ofInt k).isNumber]
  exact and_congr_right (isNearest_ofInt k).lt_toRat_iff

/-! ## Overflow -/

/-- The largest finite value. -/
theorem units_pred_infiniteMagnitude :
    (units (infiniteMagnitude - 1) : ℚ) * leastValue = 2 ^ (1024 : ℤ) - 2 ^ (971 : ℤ) := by
  have hblock : infiniteMagnitude - 1 = 2045 * exponentWeight + (2 * exponentWeight - 1) := rfl
  have hsignificand : ((2 * exponentWeight - 1 : ℕ) : ℚ) = 2 ^ (53 : ℤ) - 1 := by
    norm_num [exponentWeight]
  have hstep : (2 : ℚ) ^ (2045 : ℕ) * leastValue = 2 ^ (971 : ℤ) := by
    rw [← zpow_natCast, leastValue, ← zpow_add₀ two_ne_zero]
    rfl
  rw [hblock, units_block (.inr (by decide)) (by omega), Nat.cast_mul, hsignificand, Nat.cast_pow,
    Nat.cast_two, mul_assoc, hstep, sub_mul, one_mul, ← zpow_add₀ two_ne_zero]
  rfl

/-- A magnitude can be taken with the sign of what is rounded. -/
theorem exists_isNumber_dist (q : ℚ) {n : ℕ} (hn : n ≤ infiniteMagnitude) :
    ∃ y : Binary64, y.isNumber = true ∧ y.magnitude = n
      ∧ |y.toRat - q| = |units n * leastValue - abs q| := by
  obtain hq | hq := le_total 0 q
  · obtain ⟨y, hy, hrank⟩ := exists_rank_eq (k := n) (by simpa using hn)
    refine ⟨y, hy, by rw [← natAbs_rank, hrank, Int.natAbs_natCast], ?_⟩
    rw [toRat_eq, hrank, signedUnits_natCast, Int.cast_natCast, abs_of_nonneg hq]
  · obtain ⟨y, hy, hrank⟩ := exists_rank_eq (k := -n) (by simpa using hn)
    refine ⟨y, hy, by rw [← natAbs_rank, hrank, Int.natAbs_neg, Int.natAbs_natCast], ?_⟩
    rw [toRat_eq, hrank, signedUnits_neg, signedUnits_natCast, Int.cast_neg, Int.cast_natCast,
      abs_of_nonpos hq, neg_mul, sub_neg_eq_add, ← abs_neg, neg_sub, sub_neg_eq_add, add_comm]

namespace IsNearest

variable {x : Binary64} {q : ℚ}

/-- Without the signs, the magnitude of the nearest value is preferred. -/
theorem preferred_magnitude (h : x.IsNearest q) {n : ℕ} (hn : n ≤ infiniteMagnitude)
    (hne : n ≠ x.magnitude) :
    Preferred (x.magnitude % 2 = 0) (abs q) (units x.magnitude * leastValue)
      (units n * leastValue) := by
  obtain ⟨y, hy, hmagnitude, hdist⟩ := exists_isNumber_dist q hn
  have hclosest := h.closest y hy
  have hle : |units x.magnitude * leastValue - abs q| ≤ |x.toRat - q| := by
    rw [← abs_toRat]
    exact abs_abs_sub_abs_le_abs_sub ..
  rw [hdist] at hclosest
  obtain hlt | heq := (hle.trans hclosest).lt_or_eq
  · exact .inl hlt
  · refine .inr ⟨heq, h.even_of_tie y hy (fun hvalue => hne ?_) ?_⟩
    · have habs := abs_toRat y
      rw [hvalue, abs_toRat, units_mul_inj] at habs
      rw [habs, hmagnitude]
    · exact le_antisymm (hdist ▸ hclosest) (hdist ▸ heq ▸ hle)

/-- **Rounding overflows from halfway between the largest finite value and
`2 ^ 1024` on**, and nowhere below. -/
theorem isFinite_iff (h : x.IsNearest q) :
    x.isFinite = true ↔ |q| < 2 ^ (1024 : ℤ) - 2 ^ (970 : ℤ) := by
  have hinfinite := units_infiniteMagnitude
  have hlargest := units_pred_infiniteMagnitude
  have hpos : (0 : ℚ) < 2 ^ (970 : ℤ) := zpow_pos two_pos _
  have hstep : (2 : ℚ) ^ (971 : ℤ) = 2 * 2 ^ (970 : ℤ) := by
    rw [← zpow_one_add₀ two_ne_zero]
    rfl
  rw [hstep] at hlargest
  -- the powers are used as two lengths from here on
  generalize (2 : ℚ) ^ (1024 : ℤ) = top at hinfinite hlargest ⊢
  generalize (2 : ℚ) ^ (970 : ℤ) = half at hlargest hpos ⊢
  rw [isFinite, decide_eq_true_iff]
  constructor
  · intro hfinite
    by_contra hq
    have hpreferred := h.preferred_magnitude le_rfl hfinite.ne'
    rw [hinfinite] at hpreferred
    have hle : units x.magnitude * leastValue ≤ top - 2 * half := by
      rw [← hlargest, units_mul_le_iff]
      omega
    obtain hq' | hq' := le_total top |q|
    · exact (dist_lt_of_lt_of_le (by linarith) hq').not_ge hpreferred.le
    · -- the value can only be the largest one, at the same distance, and that is odd
      have htop := abs_of_nonneg (show 0 ≤ top - |q| by linarith)
      have hbelow := neg_abs_le (units x.magnitude * leastValue - |q|)
      have hlargest' : x.magnitude = infiniteMagnitude - 1 :=
        units_mul_inj.1 (by linarith [hpreferred.le])
      have heven := (hpreferred.resolve_left (by linarith)).2
      rw [hlargest'] at heven
      exact absurd heven (by decide)
  · intro hq
    by_contra hfinite
    have hmagnitude : x.magnitude = infiniteMagnitude :=
      le_antisymm (isNumber_iff.1 h.isNumber) (not_lt.1 hfinite)
    have hpreferred := (h.preferred_magnitude (Nat.sub_le infiniteMagnitude 1) (by
      rw [hmagnitude]
      decide)).le
    rw [hmagnitude, hinfinite, hlargest] at hpreferred
    obtain hq' | hq' := le_total |q| (top - 2 * half)
    · exact (dist_lt_of_le_of_lt hq' (by linarith)).not_ge hpreferred
    · have hbelow := abs_of_nonpos (show top - 2 * half - |q| ≤ 0 by linarith)
      have habove := le_abs_self (top - |q|)
      linarith

end IsNearest

/-! ## One value only -/

/-- **There is one nearest value**, up to the sign of zero. -/
theorem IsNearest.toRat_unique {x y : Binary64} {q : ℚ} (hx : x.IsNearest q)
    (hy : y.IsNearest q) : x.toRat = y.toRat := by
  by_contra hne
  wlog hlt : x.toRat < y.toRat generalizing x y
  · exact this hy hx (Ne.symm hne) (lt_of_le_of_ne (not_lt.1 hlt) (Ne.symm hne))
  have hdist : |x.toRat - q| = |y.toRat - q| :=
    le_antisymm (hx.closest y hy.isNumber) (hy.closest x hx.isNumber)
  -- what is rounded is in the middle, so nothing lies between the two
  have hmiddle : x.toRat - q = -(y.toRat - q) := by
    refine (abs_eq_abs.1 hdist).resolve_left fun h => hne ?_
    linarith
  have hrank := toRat_lt_iff_rank_lt.1 hlt
  have hnext : y.rank = x.rank + 1 := by
    by_contra hgap
    have hbounds := isNumber_iff.1 hx.isNumber
    have hbounds' := isNumber_iff.1 hy.isNumber
    rw [← natAbs_rank] at hbounds hbounds'
    obtain ⟨z, hz, hzrank⟩ := exists_rank_eq (k := x.rank + 1) (by omega)
    have hxz : x.toRat < z.toRat := toRat_lt_iff_rank_lt.2 (by omega)
    have hzy : z.toRat < y.toRat := toRat_lt_iff_rank_lt.2 (by omega)
    have hcloser : |z.toRat - q| < |y.toRat - q| := by
      rw [abs_of_pos (a := y.toRat - q) (by linarith), abs_lt]
      constructor <;> linarith
    exact hcloser.not_ge (hy.closest z hz)
  have hxeven := hx.even_of_tie y hy.isNumber (Ne.symm hne) hdist
  have hyeven := hy.even_of_tie x hx.isNumber hne hdist.symm
  rw [← natAbs_rank] at hxeven hyeven
  omega

/-! ## Exact integers -/

/-- A value that needs no rounding is the nearest one. -/
theorem IsNearest.toRat_eq {x y : Binary64} {q : ℚ} (h : x.IsNearest q) (hy : y.isNumber = true)
    (hq : y.toRat = q) : x.toRat = q := by
  have hclosest := h.closest y hy
  rw [hq, sub_self, abs_zero] at hclosest
  exact sub_eq_zero.1 (abs_nonpos_iff.1 hclosest)

/-- A natural number up to `2 ^ 53` is scaled into a block. -/
theorem exists_scale {n : ℕ} (hpos : n ≠ 0) (hn : n ≤ 2 ^ 53) :
    ∃ s ≤ 52, exponentWeight ≤ n * 2 ^ s ∧ n * 2 ^ s ≤ 2 * exponentWeight := by
  have hlow := Nat.log2_self_le hpos
  have hhigh := @Nat.lt_log2_self n
  obtain hlog | hlog := le_or_gt n.log2 52
  · refine ⟨52 - n.log2, Nat.sub_le .., ?_, ?_⟩
    · calc exponentWeight = 2 ^ n.log2 * 2 ^ (52 - n.log2) := by
            rw [← pow_add, Nat.add_sub_cancel' hlog]
            rfl
        _ ≤ n * 2 ^ (52 - n.log2) := Nat.mul_le_mul_right _ hlow
    · calc n * 2 ^ (52 - n.log2) ≤ 2 ^ (n.log2 + 1) * 2 ^ (52 - n.log2) :=
            Nat.mul_le_mul_right _ hhigh.le
        _ = 2 * exponentWeight := by
            rw [← pow_add, Nat.add_right_comm, Nat.add_sub_cancel' hlog]
            rfl
  · have hle : 2 ^ 52 ≤ 2 ^ n.log2 := Nat.pow_le_pow_right two_pos hlog.le
    refine ⟨0, Nat.zero_le _, ?_, ?_⟩
    · rw [pow_zero, mul_one]
      exact hle.trans hlow
    · rw [pow_zero, mul_one]
      exact hn

/-- A natural number up to `2 ^ 53` is a value. -/
theorem exists_toRat_eq_natCast {n : ℕ} (hn : n ≤ 2 ^ 53) :
    ∃ y : Binary64, y.isNumber = true ∧ y.toRat = n := by
  by_cases hzero : n = 0
  · obtain ⟨y, hy, hrank⟩ := exists_rank_eq (k := 0) (Nat.zero_le _)
    exact ⟨y, hy, by simp [toRat_eq, hrank, hzero, signedUnits]⟩
  · obtain ⟨s, hs, hlow, hhigh⟩ := exists_scale hzero hn
    have hle : (1074 - s) * exponentWeight + n * 2 ^ s ≤ infiniteMagnitude := by
      have hexponent := Nat.mul_le_mul_right exponentWeight (Nat.sub_le 1074 s)
      unfold infiniteMagnitude
      omega
    refine ⟨ofMagnitude ((1074 - s) * exponentWeight + n * 2 ^ s), isNumber_ofMagnitude _, ?_⟩
    rw [toRat_of_isNegative_eq_false (isNegative_ofMagnitude _), magnitude_ofMagnitude,
      min_eq_left hle, units_block (.inr hlow) hhigh, mul_assoc, ← pow_add,
      Nat.add_sub_cancel' (by omega), Nat.cast_mul, Nat.cast_pow, Nat.cast_ofNat, ← zpow_natCast,
      leastValue, mul_assoc, ← zpow_add₀ two_ne_zero]
    exact mul_one _

/-- **Integers up to `2 ^ 53` are not rounded**, whatever their sign. -/
theorem toRat_ofInt {k : ℤ} (hk : k.natAbs ≤ 2 ^ 53) : (ofInt k).toRat = k := by
  obtain ⟨y, hy, hvalue⟩ := exists_toRat_eq_natCast hk
  obtain hsign | hsign := Int.natAbs_eq k
  · refine (isNearest_ofInt k).toRat_eq hy ?_
    rw [hvalue, ← Int.cast_natCast, ← hsign]
  · refine (isNearest_ofInt k).toRat_eq (y := y.neg) (by rwa [isNumber_neg]) ?_
    rw [toRat_neg, hvalue, ← Int.cast_natCast, ← Int.cast_neg, ← hsign]

/-! ## Products and quotients -/

theorem ratio_eq_abs_toRat (x : Binary64) : (x.ratio.1 : ℚ) / x.ratio.2 = |x.toRat| := by
  rw [abs_toRat, ← decode_eq_units, two_zpow_eq]
  simp only [ratio, Nat.pow_eq]
  push_cast
  rw [mul_div_assoc]

theorem ratio_den_ne_zero (x : Binary64) : x.ratio.2 ≠ 0 := (Nat.two_pow_pos _).ne'

/-- **A product is rounded to the nearest value**, the signs left out. -/
theorem isNearest_mul (x y : Binary64) : (x.mul y).IsNearest (|x.toRat| * |y.toRat|) := by
  have h := isNearest_nearest (x.ratio.1 * y.ratio.1)
    (mul_ne_zero x.ratio_den_ne_zero y.ratio_den_ne_zero)
  rw [Nat.cast_mul, Nat.cast_mul, mul_div_mul_comm, ratio_eq_abs_toRat, ratio_eq_abs_toRat] at h
  exact h

/-- **A quotient is rounded to the nearest value**, the signs left out. -/
theorem isNearest_div (x : Binary64) {y : Binary64} (hy : y.toRat ≠ 0) :
    (x.div y).IsNearest (|x.toRat| / |y.toRat|) := by
  have hnum : y.ratio.1 ≠ 0 := fun h => hy <| by
    have hzero := y.ratio_eq_abs_toRat
    rwa [h, Nat.cast_zero, zero_div, eq_comm, abs_eq_zero] at hzero
  have h := isNearest_nearest (x.ratio.1 * y.ratio.2) (mul_ne_zero x.ratio_den_ne_zero hnum)
  rw [Nat.cast_mul, Nat.cast_mul, ← div_mul_div_comm, ratio_eq_abs_toRat,
    ← inv_div (y.ratio.1 : ℚ), ratio_eq_abs_toRat] at h
  exact h

end Binary64

end AttributeRules
