import Mathlib.Data.Nat.Digits.Defs
import Mathlib.Tactic.Ring
import AttributeRules.Decimal.Integer

/-!
# What a decimal spelling denotes

An integer is read one digit after the other, each new digit being appended to
the number read so far. What it denotes does not depend on that: it is the value
that its digits have in base ten, with the sign in front of them
(`Decimal.Spells`). A text is read as an integer exactly if it spells that
integer (`Decimal.integer?_eq_some_iff`), however many digits it has. What is
written for an integer spells it (`Decimal.spells_ofInt`), so that writing loses
nothing, while reading forgets a plus sign and leading zeros.
-/

namespace AttributeRules

namespace Decimal

/-- Whether a text is a run of one or more digits. -/
def IsDigits (t : Text) : Prop := t ≠ [] ∧ ∀ c ∈ t, c.isDigit = true

instance (t : Text) : Decidable (IsDigits t) := inferInstanceAs (Decidable (_ ∧ _))

/-- The value of digits in base ten. -/
def value (t : Text) : Nat := Nat.ofDigits 10 (t.reverse.map fun c => c.toNat - '0'.toNat)

theorem value_cons (c : Char) (t : Text) :
    value (c :: t) = (c.toNat - '0'.toNat) * 10 ^ t.length + value t := by
  unfold value
  rw [List.reverse_cons, List.map_append, Nat.ofDigits_append, List.map_singleton,
    Nat.ofDigits_singleton, List.length_map, List.length_reverse]
  ring

/-- **What a text spells**: a run of digits spells its value, and a sign in front
of it is that of the integer. -/
inductive Spells : Text → Int → Prop
  /-- There is no sign. -/
  | unsigned {t : Text} (h : IsDigits t) : Spells t (value t)
  /-- There is a plus sign. -/
  | plus {t : Text} (h : IsDigits t) : Spells ('+' :: t) (value t)
  /-- There is a minus sign. -/
  | minus {t : Text} (h : IsDigits t) : Spells ('-' :: t) (-(value t : Int))

/-! ## Reading -/

/-- **Appending digits to a number** gives the number they spell together. -/
theorem foldlM_addDigit?_eq_some_iff {t : Text} {m n : Nat} :
    t.foldlM addDigit? m = some n
      ↔ (∀ c ∈ t, c.isDigit = true) ∧ n = m * 10 ^ t.length + value t := by
  induction t generalizing m with
  | nil => simpa [value] using eq_comm
  | cons c t ih =>
    rw [List.foldlM_cons, List.forall_mem_cons]
    by_cases hc : c.isDigit = true
    · have hdigit : addDigit? m c = some (10 * m + (c.toNat - '0'.toNat)) := by
        simp [addDigit?, digit?, hc]
      -- the digit goes with the number in front of it, or with the digits behind it
      have hshift : (10 * m + (c.toNat - '0'.toNat)) * 10 ^ t.length + value t
          = m * 10 ^ (t.length + 1) + ((c.toNat - '0'.toNat) * 10 ^ t.length + value t) := by
        ring
      rw [hdigit, Option.bind_eq_bind, Option.bind_some, ih, and_iff_right hc, hshift,
        value_cons, List.length_cons]
    · have hdigit : addDigit? m c = none := by
        simp [addDigit?, digit?, hc]
      rw [hdigit]
      exact iff_of_false (fun h => nomatch h) fun h => hc h.1.1

/-- **A natural number is read exactly off a run of digits.** -/
theorem natural?_eq_some_iff {t : Text} {n : Nat} :
    natural? t = some n ↔ IsDigits t ∧ n = value t := by
  cases t with
  | nil => exact iff_of_false (fun h => nomatch h) fun h => h.1.1 rfl
  | cons c t =>
    rw [natural?, foldlM_addDigit?_eq_some_iff, Nat.zero_mul, Nat.zero_add, IsDigits,
      and_iff_right (List.cons_ne_nil c t)]
    exact fun h => nomatch h

/-- **An integer is read exactly off what spells it.** -/
theorem integer?_eq_some_iff {t : Text} {k : Int} : integer? t = some k ↔ Spells t k := by
  constructor
  · intro h
    unfold integer? at h
    split at h
    · obtain ⟨_, hn, rfl⟩ := Option.map_eq_some_iff.1 h
      obtain ⟨n, hn, hcast⟩ := Option.bind_eq_some_iff.1 hn
      obtain ⟨hdigits, rfl⟩ := natural?_eq_some_iff.1 hn
      obtain rfl := Option.some.inj hcast
      exact .minus hdigits
    · obtain ⟨n, hn, rfl⟩ := Option.map_eq_some_iff.1 h
      obtain ⟨hdigits, rfl⟩ := natural?_eq_some_iff.1 hn
      exact .plus hdigits
    · obtain ⟨n, hn, rfl⟩ := Option.map_eq_some_iff.1 h
      obtain ⟨hdigits, rfl⟩ := natural?_eq_some_iff.1 hn
      exact .unsigned hdigits
  · intro h
    have hread : ∀ {s : Text}, IsDigits s → natural? s = some (value s) := fun hs =>
      natural?_eq_some_iff.2 ⟨hs, rfl⟩
    cases h with
    | unsigned hdigits =>
      unfold integer?
      split
      -- a sign is no digit
      · exact absurd (hdigits.2 '-' (List.mem_cons_self ..)) (by decide)
      · exact absurd (hdigits.2 '+' (List.mem_cons_self ..)) (by decide)
      · rw [hread hdigits]
        rfl
    | plus hdigits | minus hdigits =>
      rw [integer?, hread hdigits]
      rfl

/-! ## Writing -/

theorem value_eq_ofDigitChars (t : Text) : value t = Nat.ofDigitChars 10 t 0 := by
  induction t with
  | nil => rfl
  | cons c t ih =>
    rw [value_cons, ih, Nat.ofDigitChars_cons, Nat.mul_zero, Nat.zero_add,
      @Nat.ofDigitChars_eq_ofDigitChars_zero t (c.toNat - '0'.toNat), Nat.mul_comm]

theorem isDigits_ofNat (n : Nat) : IsDigits (ofNat n) :=
  ⟨Nat.toDigits_ne_nil, fun _ => Nat.isDigit_of_mem_toDigits (by decide) (by decide)⟩

theorem value_ofNat (n : Nat) : value (ofNat n) = n := by
  rw [value_eq_ofDigitChars, ofNat, Nat.ofDigitChars_ten_toDigits]

/-- **An integer is spelt by what is written for it.** -/
theorem spells_ofInt (k : Int) : Spells (ofInt k) k := by
  cases k with
  | ofNat n =>
    have h := Spells.unsigned (isDigits_ofNat n)
    rwa [value_ofNat] at h
  | negSucc n =>
    have h := Spells.minus (isDigits_ofNat (n + 1))
    rwa [value_ofNat] at h

end Decimal

end AttributeRules
