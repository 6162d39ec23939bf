import AttributeRules.Proofs.Literal.Made
import AttributeRules.Proofs.Rule.Constructible

/-!
# Conditions made by hand

`Condition.build` accepts a field, a comparator and a literal if the text of the
three is read as just these. What stands between the field and the literal is
always scanned as a comparator, and a literal that was made reads back on its
own (`Literal.Constructible.readsBack`), so it is the field that decides – but
not the field alone. A field with a quote in front is a word as long as nothing
closes that quote, and the quote of a literal behind it can. The same field
`'x` is therefore accepted in front of `1` and refused in front of `'a'`.
-/

namespace AttributeRules

/-- **Every literal that can be made reads back.** -/
theorem Literal.Constructible.readsBack {l : Literal} (h : l.Constructible) : l.ReadsBack := by
  cases h with
  | ofInt64 n =>
    exact readsBack_iff.2
      (Token.fits_of_isPlain (Decimal.ofInt_ne_nil _) (Decimal.isPlain_ofInt _))
  | ofText h => exact (readsBack_of_made (.inr h)).1
  | quote h => exact (readsBack_of_made (.inl h)).1
  | parse h =>
    have htoken : l.token ∈ [l.token] := List.mem_singleton_self l.token
    exact readsBack_iff.2 (Token.fits_of_mem_ofText (parse_eq_ok_iff.1 h ▸ htoken))

namespace Condition

/-- A condition with a literal that reads back reads back itself exactly if its
field is a bare word that the literal does not close. -/
theorem readsBack_iff_of_literal {c : Condition} (h : c.literal.ReadsBack) :
    c.ReadsBack ↔ c.field.IsBareWord
      ∧ ¬ (c.field.head? = some Text.quoteMark ∧ Text.HoldsClosing c.literal.render) := by
  rw [readsBack_iff, ← Literal.readsBack_iff, and_iff_right h, Token.fits_word_iff_isBareWord,
    not_and]

/-- **Which conditions can be made by hand.** A literal that was made can stand
behind every field that is one word, unless the field begins with a quote and
the literal closes it, and then the condition has exactly the parts it was made
from. -/
theorem build_eq_ok_iff_isBareWord {l : Literal} (hl : l.Constructible) (field : Text)
    (comparator : Comparator) :
    (∀ c, build field comparator l = .ok c
        ↔ (Token.ofText field = [.word field]
            ∧ ¬ (field.head? = some Text.quoteMark ∧ Text.HoldsClosing l.render))
          ∧ c.field = field ∧ c.comparator = comparator ∧ c.literal = l)
      ∧ (Token.ofText field = [.word field] ↔ field.IsBareWord) := by
  refine ⟨fun c => ?_, Token.ofText_eq_word_iff⟩
  rw [build_eq_ok_iff, Token.ofText_eq_word_iff]
  constructor
  · rintro ⟨rfl, hreads⟩
    exact ⟨(readsBack_iff_of_literal hl.readsBack).1 hreads, rfl, rfl, rfl⟩
  · rintro ⟨haccepted, rfl, rfl, rfl⟩
    exact ⟨rfl, (readsBack_iff_of_literal hl.readsBack).2 haccepted⟩

/-- A field with a quote in front can be made with an integer, and cannot be
made with a quoted literal. -/
theorem build_quote_field :
    (Literal.bare "-5".toList).Constructible ∧ (Literal.quoted "a".toList).Constructible
      ∧ build "'x(y)".toList .less (.bare "-5".toList)
          = .ok ⟨"'x(y)".toList, .less, .bare "-5".toList⟩
      ∧ ¬ ∃ c, build "'x(y)".toList .less (.quoted "a".toList) = .ok c := by
  have hinteger : (Literal.bare "-5".toList).Constructible := .ofInt64 (-5)
  have hquote : Literal.quote "a".toList = .ok (.quoted "a".toList) :=
    toOption_eq_some_iff.1 (by decide +kernel)
  have hquoted : (Literal.quoted "a".toList).Constructible := .quote hquote
  refine ⟨hinteger, hquoted, ?_, ?_⟩
  · rw [(build_eq_ok_iff_isBareWord hinteger _ _).1]
    decide +kernel
  · rintro ⟨c, hc⟩
    obtain ⟨⟨-, hcloses⟩, -⟩ := ((build_eq_ok_iff_isBareWord hquoted _ _).1 c).1 hc
    exact hcloses (by decide +kernel)

end Condition

end AttributeRules
