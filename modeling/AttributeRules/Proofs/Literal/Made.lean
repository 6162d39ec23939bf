import AttributeRules.Proofs.Decimal.Spelling
import AttributeRules.Proofs.Literal.ReadBack

/-!
# Literals made for a text

A literal that stands for a given text is written in quotes or as a bare word.
Neither always works. Between quotes a text must not hold one that closes the
literal early; as a bare word it must be one, and must not spell an integer,
which would be read as a number.

The makers find out by reading back what they would write. Here that is turned
into conditions on the text: `Literal.quote_eq_ok_iff` for the maker that always
quotes and `Literal.ofText_eq_ok_iff` for the one that prefers a bare word. The
two conditions overlap without one containing the other, as `f('x')` is a word
that cannot be quoted and `a b` can be quoted and is no word. Only integers are
bare words that are always quoted, and nothing in them stops that: they are
written with digits and a sign (`Decimal.isPlain_of_integer?`).
-/

namespace AttributeRules

/-! ## The characters of integers -/

theorem Text.isPlain_of_isDigit {c : Char} (h : c.isDigit = true) : IsPlain c := by
  have hrange : 48 ≤ c.toNat ∧ c.toNat ≤ 57 := by
    simpa [Char.isDigit, UInt32.le_iff_toNat_le] using h
  refine ⟨?_, ?_, ?_, ?_⟩
  · rw [Bool.eq_false_iff]
    intro hblank
    simp [isBlank, inRanges, blankRanges] at hblank
    omega
  · rintro rfl
    exact absurd h (by decide)
  · rintro rfl
    exact absurd h (by decide)
  · rintro rfl
    exact absurd h (by decide)

namespace Decimal

/-- **An integer is written with plain characters.** -/
theorem isPlain_of_integer? {t : Text} {n : Int} (h : integer? t = some n) :
    ∀ c ∈ t, Text.IsPlain c := by
  have hdigits : ∀ {s : Text}, IsDigits s → ∀ c ∈ s, Text.IsPlain c := fun hs c hc =>
    Text.isPlain_of_isDigit (hs.2 c hc)
  cases integer?_eq_some_iff.1 h with
  | unsigned hs => exact hdigits hs
  | plus hs | minus hs => exact List.forall_mem_cons.2 ⟨by decide, hdigits hs⟩

/-- The plain decimal spelling of an integer has plain characters. -/
theorem isPlain_ofInt (n : Int) : ∀ c ∈ ofInt n, Text.IsPlain c := by
  have hdigits : ∀ m, ∀ c ∈ ofNat m, Text.IsPlain c := fun m c hc =>
    Text.isPlain_of_isDigit (Nat.isDigit_of_mem_toDigits (by decide) (by decide) hc)
  cases n with
  | ofNat m => exact hdigits m
  | negSucc m => exact List.forall_mem_cons.2 ⟨by decide, hdigits (m + 1)⟩

theorem ofInt_ne_nil (n : Int) : ofInt n ≠ [] := by
  cases n with
  | ofNat m => exact Nat.toDigits_ne_nil
  | negSucc m => exact List.cons_ne_nil _ _

end Decimal

/-! ## What the makers accept -/

namespace Literal

open Text

/-- A bare literal reads back exactly if it is a bare word. -/
theorem readsBack_bare_iff {t : Text} : (bare t).ReadsBack ↔ IsBareWord t :=
  readsBack_iff.trans Token.fits_word_iff_isBareWord

/-- A quoted literal reads back exactly if no quote within closes it early. -/
theorem readsBack_quoted_iff {t : Text} : (quoted t).ReadsBack ↔ ¬ HoldsEarlyClosing t :=
  readsBack_iff.trans Token.fits_inQuotes_iff

/-- A literal that reads back is read from its text. -/
theorem ReadsBack.parse_render {l : Literal} (h : l.ReadsBack) : parse l.render = .ok l :=
  toOption_eq_some_iff.1 h

/-- **A text can be quoted exactly if none of its own quotes closes early.** -/
theorem quote_eq_ok_iff {t : Text} {l : Literal} :
    quote t = .ok l ↔ l = quoted t ∧ ¬ HoldsEarlyClosing t := by
  rw [← readsBack_quoted_iff]
  unfold quote
  by_cases h : (quoted t).ReadsBack
  · rw [if_pos h]
    simp [h, eq_comm]
  · rw [if_neg h]
    simp [h]

/-- **What becomes of a text**: a bare word that is no integer stays bare, and
everything else is quoted where that is possible. -/
theorem ofText_eq_ok_iff {t : Text} {l : Literal} :
    ofText t = .ok l
      ↔ (IsBareWord t ∧ (bare t).integer? = none ∧ l = bare t)
        ∨ (¬ (IsBareWord t ∧ (bare t).integer? = none) ∧ quote t = .ok l) := by
  rw [← readsBack_bare_iff]
  unfold ofText
  by_cases h : (bare t).ReadsBack ∧ (bare t).integer? = none
  · rw [if_pos h]
    simp [h, eq_comm]
  · rw [if_neg h, and_iff_right h]
    exact (or_iff_right fun hbare => h ⟨hbare.1, hbare.2.1⟩).symm

/-- A text that is an integer can be quoted. -/
theorem quote_of_integer? {t : Text} {n : Int} (h : (bare t).integer? = some n) :
    quote t = .ok (quoted t) := by
  have hspelled : Decimal.integer? t = some n := (Option.filter_eq_some_iff.1 h).1
  exact quote_eq_ok_iff.2
    ⟨rfl, not_holdsEarlyClosing_of_isPlain (Decimal.isPlain_of_integer? hspelled)⟩

/-- **A literal made for a text reads back, stands for that text and is no
integer.** -/
theorem readsBack_of_made {t : Text} {l : Literal} (h : quote t = .ok l ∨ ofText t = .ok l) :
    l.ReadsBack ∧ l.text = t ∧ l.integer? = none := by
  have hquoted : quote t = .ok l → l.ReadsBack ∧ l.text = t ∧ l.integer? = none := by
    intro hquote
    obtain ⟨rfl, hcloses⟩ := quote_eq_ok_iff.1 hquote
    exact ⟨readsBack_quoted_iff.2 hcloses, rfl, rfl⟩
  obtain hquote | hmade := h
  · exact hquoted hquote
  · obtain ⟨hword, hinteger, rfl⟩ | ⟨-, hquote⟩ := ofText_eq_ok_iff.1 hmade
    · exact ⟨readsBack_bare_iff.2 hword, rfl, hinteger⟩
    · exact hquoted hquote

/-- A bare literal is no integer exactly if no integer in range is spelt
alike. -/
theorem integer?_bare_eq_none_iff {t : Text} :
    (bare t).integer? = none ↔ ¬ ∃ n, Decimal.integer? t = some n ∧ InRange n := by
  unfold integer?
  simp [Option.filter_eq_none_iff]

/-- **What the two makers of literals accept, and what they make of it.** Each
literal they make stands for the text it was made for and comes back from its
own text. The maker that prefers a bare word resorts to quotes where there is no
word or where it would be read as an integer, and fails only if it needs them
and cannot have them. -/
theorem quote_iff_and_ofText_iff (t : Text) :
    ((∃ l, quote t = .ok l) ↔ ¬ HoldsEarlyClosing t)
      ∧ ((∃ l, ofText t = .ok l) ↔ (∃ l, quote t = .ok l) ∨ Token.ofText t = [.word t])
      ∧ (∀ l, quote t = .ok l ∨ ofText t = .ok l →
          l.text = t ∧ l.integer? = none ∧ parse l.render = .ok l)
      ∧ ∀ l, ofText t = .ok l →
          (l.isQuoted = false
            ↔ Token.ofText t = [.word t] ∧ ¬ ∃ n, Decimal.integer? t = some n ∧ InRange n) := by
  refine ⟨by simp [quote_eq_ok_iff], ?_, fun l h => ?_, fun l h => ?_⟩
  · rw [Token.ofText_eq_word_iff]
    constructor
    · rintro ⟨l, hl⟩
      obtain ⟨hword, -, -⟩ | ⟨-, hquote⟩ := ofText_eq_ok_iff.1 hl
      · exact .inr hword
      · exact .inl ⟨l, hquote⟩
    · intro h
      by_cases hbare : IsBareWord t ∧ (bare t).integer? = none
      · exact ⟨bare t, ofText_eq_ok_iff.2 (.inl ⟨hbare.1, hbare.2, rfl⟩)⟩
      · -- quotes are needed, and an integer can have them
        obtain ⟨l, hquote⟩ : ∃ l, quote t = .ok l := by
          obtain hquote | hword := h
          · exact hquote
          · obtain ⟨n, hn⟩ := Option.ne_none_iff_exists'.1 fun hnone => hbare ⟨hword, hnone⟩
            exact ⟨_, quote_of_integer? hn⟩
        exact ⟨l, ofText_eq_ok_iff.2 (.inr ⟨hbare, hquote⟩)⟩
  · obtain ⟨hreads, htext, hinteger⟩ := readsBack_of_made h
    exact ⟨htext, hinteger, hreads.parse_render⟩
  · rw [Token.ofText_eq_word_iff, ← integer?_bare_eq_none_iff]
    obtain ⟨hword, hinteger, rfl⟩ | ⟨hbare, hquote⟩ := ofText_eq_ok_iff.1 h
    · exact iff_of_true rfl ⟨hword, hinteger⟩
    · obtain ⟨rfl, -⟩ := quote_eq_ok_iff.1 hquote
      exact iff_of_false (by simp [isQuoted]) hbare

/-- A word that cannot be quoted, an integer that cannot be bare, and a text
that can be neither. -/
theorem ofText_paren_integer_spaced :
    (ofText "f('x')".toList = .ok (bare "f('x')".toList)
        ∧ (bare "f('x')".toList).integer? = none ∧ ¬ ∃ l, quote "f('x')".toList = .ok l)
      ∧ (ofText "-07".toList = .ok (quoted "-07".toList) ∧ (quoted "-07".toList).integer? = none)
      ∧ ¬ ∃ l, ofText "rock' n roll".toList = .ok l := by
  have hparen : ofText "f('x')".toList = .ok (bare "f('x')".toList) :=
    toOption_eq_some_iff.1 (by decide +kernel)
  have hinteger : ofText "-07".toList = .ok (quoted "-07".toList) :=
    toOption_eq_some_iff.1 (by decide +kernel)
  refine ⟨⟨hparen, ?_, ?_⟩, ⟨hinteger, ?_⟩, ?_⟩
  · exact ((quote_iff_and_ofText_iff _).2.2.1 _ (.inr hparen)).2.1
  · rw [(quote_iff_and_ofText_iff _).1]
    decide +kernel
  · exact ((quote_iff_and_ofText_iff _).2.2.1 _ (.inr hinteger)).2.1
  · rw [(quote_iff_and_ofText_iff _).2.1, (quote_iff_and_ofText_iff _).1]
    decide +kernel

end Literal

end AttributeRules
