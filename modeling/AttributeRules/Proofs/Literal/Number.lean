import AttributeRules.Literal.Parse
import AttributeRules.Proofs.Decimal.Spelling
import AttributeRules.Proofs.Evaluation.Report
import AttributeRules.Proofs.Token.Fit

/-!
# The two readings of a bare literal

A word where a literal is expected is read in two ways. It is a number if it
spells an integer of at most 128 bits, and it is a text in any case, namely its
own characters. A number does not lose its spelling, and a text that looks like
a number is not changed into one: `+007` is seven and is the text `+007`, and no
text besides that one. A literal that is made of an integer is the number it was
made of (`Literal.integer?_ofInt64`).

Which reading counts is up to the value that it is compared with. An integer is
compared with the number and is neither greater nor less where there is none; a
text is compared with the text, also where there is a number.
-/

namespace AttributeRules

namespace Condition

/-- A condition on a field that has a value holds exactly if the value meets
it. -/
theorem holds_iff_metBy {c : Condition} {r : Record} {v : Value} (h : r.get? c.field = some v) :
    c.holds r = true ↔ c.MetBy v := by
  rw [(c.report_cases r).1, SatisfiedBy, h]
  simp

end Condition

namespace Literal

theorem inRange_iff {k : Int} : InRange k ↔ -2 ^ 127 ≤ k ∧ k ≤ 2 ^ 127 - 1 := by
  unfold InRange integerBound
  omega

/-- **The number of a bare literal** is the integer that it spells, if that has at
most 128 bits. -/
theorem integer?_bare_eq_some_iff {w : Text} {k : Int} :
    (bare w).integer? = some k ↔ Decimal.Spells w k ∧ InRange k := by
  rw [integer?, Option.filter_eq_some_iff, Decimal.integer?_eq_some_iff, decide_eq_true_iff]

/-- **The literal of an integer stands for that integer.** Its number is derived
from the spelling and not kept beside it. -/
theorem integer?_ofInt64 (n : Int64) : (ofInt64 n).integer? = some n.toInt := by
  have hlower := n.le_toInt
  have hupper := n.toInt_lt
  exact integer?_bare_eq_some_iff.2 ⟨Decimal.spells_ofInt _, inRange_iff.2 (by omega)⟩

/-- **The integer of a literal is rounded to a finite value** when it is compared
with floating point. -/
theorem isFinite_ofInt {l : Literal} {k : Int} (h : l.integer? = some k) :
    (Binary64.ofInt k).isFinite = true := by
  have hrange : InRange k := by
    cases l with
    | quoted content => exact nomatch h
    | bare w => exact (integer?_bare_eq_some_iff.1 h).2
  obtain ⟨hlow, hhigh⟩ := inRange_iff.1 hrange
  have habs : |(k : ℚ)| ≤ 2 ^ (127 : ℤ) := by
    have hint : |k| ≤ 2 ^ 127 := abs_le.2 ⟨hlow, by omega⟩
    exact_mod_cast hint
  have hsmall : (2 : ℚ) ^ (127 : ℤ) ≤ 2 ^ (970 : ℤ) := zpow_le_zpow_right₀ one_le_two (by decide)
  have hlarge : (2 : ℚ) ^ (970 : ℤ) * 2 < 2 ^ (1024 : ℤ) := by
    rw [← zpow_add_one₀ two_ne_zero]
    exact zpow_lt_zpow_right₀ one_lt_two (by decide)
  refine (Binary64.isNearest_ofInt k).isFinite_iff.2 ((habs.trans hsmall).trans_lt ?_)
  rwa [lt_sub_iff_add_lt, ← mul_two]

/-- **A bare literal is a text by its spelling and a number by its value.** The
literal of a word is bare and keeps the word, for its text and when it is written.
It is a number exactly if the word is at most one sign and one or more digits that
denote an integer of 128 bits. A text equals it exactly if it is the word; an
integer is greater or less exactly if there is a number that it is greater or less
than. -/
theorem ofToken_spelling_and_number {source w : Text} (h : Token.word w ∈ Token.ofText source) :
    ofToken w = bare w ∧ (ofToken w).text = w ∧ (ofToken w).render = w
      ∧ (∀ k, (ofToken w).integer? = some k
        ↔ Decimal.Spells w k ∧ -2 ^ 127 ≤ k ∧ k ≤ 2 ^ 127 - 1)
      ∧ ∀ (field : Text) (r : Record),
        (∀ s, r.get? field = some (.text s) →
          (Condition.holds ⟨field, .equal, ofToken w⟩ r = true ↔ s = w))
        ∧ ∀ v, r.get? field = some (.integer v) →
          (Condition.holds ⟨field, .greater, ofToken w⟩ r = true
            ↔ ∃ k, (ofToken w).integer? = some k ∧ v.toInt > k)
          ∧ (Condition.holds ⟨field, .less, ofToken w⟩ r = true
            ↔ ∃ k, (ofToken w).integer? = some k ∧ v.toInt < k) := by
  have hbare : ofToken w = bare w := (Token.fits_of_mem_ofText h).ofToken_word
  rw [hbare]
  refine ⟨rfl, rfl, rfl, fun k => ?_, fun field r => ⟨fun s hs => ?_, fun v hv => ⟨?_, ?_⟩⟩⟩
  · rw [integer?_bare_eq_some_iff, inRange_iff]
  · rw [Condition.holds_iff_metBy hs]
    simp [Condition.MetBy]
  · rw [Condition.holds_iff_metBy hv]
    simp [Condition.MetBy]
  · rw [Condition.holds_iff_metBy hv]
    simp [Condition.MetBy]

/-- The least integer of 128 bits behind a leading zero, the first one that is
too large, and a number with a sign that a text is compared with. -/
theorem ofToken_least_beyond_signed :
    let least := "-0170141183460469231731687303715884105728".toList
    let beyond := "170141183460469231731687303715884105728".toList
    let signed := "+007".toList
    let source := "(a > ".toList ++ least ++ " OR a < ".toList ++ beyond ++ ") AND b = +007".toList
    let r := Record.ofEntries [("b".toList, .text "7".toList)]
    (∀ w ∈ [least, beyond, signed], Token.word w ∈ Token.ofText source)
      ∧ (ofToken least).integer? = some (-2 ^ 127) ∧ (ofToken beyond).integer? = none
      ∧ ¬ Condition.holds ⟨"b".toList, .equal, ofToken signed⟩ r = true := by
  intro least beyond signed source r
  have hwords : ∀ w ∈ [least, beyond, signed], Token.word w ∈ Token.ofText source := by
    decide +kernel
  refine ⟨hwords, ?_, ?_, ?_⟩
  · obtain ⟨-, -, -, hnumber, -⟩ := ofToken_spelling_and_number (hwords least (by simp))
    have hspells : Decimal.Spells least (-2 ^ 127) := Decimal.integer?_eq_some_iff.1 (by decide)
    exact (hnumber _).2 ⟨hspells, by omega, by omega⟩
  · obtain ⟨-, -, -, hnumber, -⟩ := ofToken_spelling_and_number (hwords beyond (by simp))
    have hvalue : Decimal.integer? beyond = some (2 ^ 127) := by decide
    refine Option.eq_none_iff_forall_ne_some.2 fun k hk => ?_
    obtain ⟨hspells, -, hbound⟩ := (hnumber k).1 hk
    obtain rfl := Option.some.inj (hvalue.symm.trans (Decimal.integer?_eq_some_iff.2 hspells))
    exact absurd hbound (by decide)
  · obtain ⟨-, -, -, -, hcondition⟩ := ofToken_spelling_and_number (hwords signed (by simp))
    rw [(hcondition "b".toList r).1 "7".toList (by decide)]
    decide

end Literal

end AttributeRules
