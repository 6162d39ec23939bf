import AttributeRules.Proofs.Rule.Rendering
import AttributeRules.Proofs.Token.Spacing

/-!
# Rules that were read, written and read again

A rule that was read from a text has a text of its own, and the two differ. The
parentheses of the first are gone and the second has others, some of them right
behind a word that had a blank there; connectives are in capitals; between
tokens there is one space or none. One would expect a quote to be opened or
closed by this now and then, as happens with rules that are put together by
hand.

It does not happen. What opens a quote is a field or a literal, and so is what
closes one. These come in the same order in both texts, for the tokens of the
conditions are all among the tokens the rule was derived from
(`Derives.conditionTokens_sublist`). Whether the quotes of a rule are inert
depends on the tokens of its conditions alone (`Rule.quotesInert_iff_unclosed`),
and the tokens of a text are unclosed. So the one thing that can still go wrong
is a word that takes the parenthesis behind it
(`Rule.parse_render_iff_of_parse`).
-/

namespace AttributeRules

open Token

/-! ## The tokens of conditions -/

namespace Rule

/-- The tokens of the conditions of a rule, from left to right. -/
def conditionTokens (r : Rule) : List Token := r.conditions.flatMap Condition.tokens

theorem conditionTokens_operand (c : Condition) : (operand c).conditionTokens = c.tokens := by
  rw [conditionTokens, conditions_operand, List.flatMap_singleton]

theorem conditionTokens_branch (op : Connective) (left right : Rule) :
    (branch op left right).conditionTokens = left.conditionTokens ++ right.conditionTokens := by
  rw [conditionTokens, conditions_branch, List.flatMap_append]
  rfl

end Rule

/-- A chain of tokens that contains those of both sides contains those of the
branch, in order. -/
theorem Rule.conditionTokens_branch_sublist {op : Connective} {ltokens rtokens : List Token}
    {left right : Rule} (token : Token) (hleft : left.conditionTokens.Sublist ltokens)
    (hright : right.conditionTokens.Sublist rtokens) :
    (branch op left right).conditionTokens.Sublist (ltokens ++ token :: rtokens) := by
  rw [conditionTokens_branch]
  exact hleft.append (hright.cons token)

/-- **The tokens of the conditions of a rule are among those it is derived
from**, in the same order. -/
theorem Derives.conditionTokens_sublist {symbol : Nonterminal} {tokens : List Token} {r : Rule}
    (h : Derives symbol tokens r) (hfits : ∀ token ∈ tokens, token.Fits []) :
    r.conditionTokens.Sublist tokens := by
  induction h with
  | predicate hc =>
    obtain rfl := hc.eq_tokens hfits
    simp only [Rule.conditionTokens_operand, List.Sublist.refl]
  | primary _ ih => exact ih hfits
  | group _ ih =>
    have hinside := ih fun token htoken => hfits token (by simp [htoken])
    exact (hinside.trans (List.sublist_append_left ..)).cons _
  | conjunction _ ih => exact ih hfits
  | disjunction _ ih => exact ih hfits
  | and _ _ _ ihleft ihright | or _ _ _ ihleft ihright =>
    refine Rule.conditionTokens_branch_sublist _ (ihleft fun token htoken => ?_)
      (ihright fun token htoken => ?_)
    · exact hfits token (List.mem_append_left _ htoken)
    · exact hfits token (by simp [htoken])

namespace Rule

/-! ## Quotes and the tokens of conditions -/

/-- Parentheses around a text add no closing quote. -/
theorem holdsClosing_enclose_iff {child : Rule} {t : Text} :
    Text.HoldsClosing (enclose child t) ↔ Text.HoldsClosing t := by
  unfold enclose
  split
  · rfl
  · rw [List.cons_append, Text.holdsClosing_openParen, Text.holdsClosing_append (t := [')']) rfl,
      Text.holdsClosing_closeParen, or_iff_left Text.not_holdsClosing_nil]

theorem holdsClosing_closing_append_iff {child : Rule} {t : Text} :
    Text.HoldsClosing (child.closing ++ t) ↔ Text.HoldsClosing t := by
  unfold closing
  split
  · rfl
  · exact Text.holdsClosing_closeParen

/-- A connective adds no closing quote to what follows it. -/
theorem holdsClosing_connective_append_iff {op : Connective} {t : Text} :
    Text.HoldsClosing (' ' :: (op.render ++ ' ' :: t)) ↔ Text.HoldsClosing t := by
  have hop : ¬ Text.HoldsClosing op.render := by cases op <;> decide
  rw [Text.holdsClosing_space, Text.holdsClosing_append_space, or_iff_right hop]

/-- **The text of a rule holds a closing quote exactly if a token of one of its
conditions does.** -/
theorem holdsClosing_render_iff {r : Rule} :
    Text.HoldsClosing r.render ↔ ∃ token ∈ r.conditionTokens, Text.HoldsClosing token.text := by
  induction r with
  | operand c =>
    rw [render_operand, ← c.spaced_tokens, holdsClosing_spaced_iff, conditionTokens_operand]
  | branch op left right ihleft ihright =>
    have hrender : (branch op left right).render
        = enclose left left.render ++ ' ' :: (op.render ++ ' ' :: enclose right right.render) := by
      simp [render]
    rw [hrender, Text.holdsClosing_append (t := ' ' :: _) rfl, holdsClosing_enclose_iff,
      holdsClosing_connective_append_iff, holdsClosing_enclose_iff, ihleft, ihright,
      conditionTokens_branch]
    simp only [List.mem_append, or_and_right, exists_or]

end Rule

/-- **The field and the bare literal of a condition that reads back are closed
by nothing but what follows the condition.** -/
theorem Condition.forall_quoteInert_iff {c : Condition} (h : c.ReadsBack) {rest : Text}
    (hrest : Text.endsQuote rest = true) :
    (∀ p ∈ c.bareWords rest, Text.QuoteInert p.1 p.2)
      ↔ ∀ token ∈ c.tokens, token.OpensQuote → ¬ Text.HoldsClosing rest := by
  obtain ⟨hfield, hliteral, hquote⟩ := Condition.readsBack_iff.1 h
  have hafter : Text.HoldsClosing
      (' ' :: (c.comparator.render ++ ' ' :: (c.literal.render ++ rest)))
        ↔ Text.HoldsClosing c.literal.render ∨ Text.HoldsClosing rest := by
    rw [Text.holdsClosing_space, Text.holdsClosing_append_space,
      or_iff_right c.comparator.not_holdsClosing_render, Text.holdsClosing_append hrest]
  have hfirst : Text.QuoteInert c.field
      (' ' :: (c.comparator.render ++ ' ' :: (c.literal.render ++ rest)))
        ↔ ((word c.field).OpensQuote → ¬ Text.HoldsClosing rest) := by
    rw [quoteInert_append_iff rfl, and_iff_right (fits_word_iff.1 hfield).2, hafter]
    exact forall_congr' fun hhead => not_congr (or_iff_right (hquote hhead))
  have hsign : (word c.comparator.render).OpensQuote → ¬ Text.HoldsClosing rest := fun hhead =>
    absurd hhead c.comparator.head?_render_ne
  unfold bareWords tokens
  rw [List.forall_mem_cons, List.forall_mem_cons, List.forall_mem_cons, and_iff_right hsign, hfirst]
  refine and_congr_right fun _ => ?_
  rw [List.forall_mem_singleton]
  cases hl : c.literal with
  | bare w =>
    rw [hl] at hliteral
    exact List.forall_mem_singleton.trans <|
      (quoteInert_append_iff hrest).trans (and_iff_right (fits_word_iff.1 hliteral).2)
  | quoted content => exact iff_of_true (by simp) fun hopens => hopens.elim

namespace Rule

/-- The fields and the bare literals of a rule are closed by nothing exactly if
the tokens of its conditions are unclosed and are not closed by what follows
the rule. -/
theorem forall_quoteInert_iff {r : Rule} (h : r.Storable) {rest : Text}
    (hrest : Text.endsQuote rest = true) :
    (∀ p ∈ r.bareWords rest, Text.QuoteInert p.1 p.2)
      ↔ Unclosed r.conditionTokens
        ∧ ∀ token ∈ r.conditionTokens, token.OpensQuote → ¬ Text.HoldsClosing rest := by
  induction r generalizing rest with
  | operand c =>
    have hc := storable_operand_iff.1 h
    rw [conditionTokens_operand, and_iff_right (Condition.readsBack_iff_tokens.1 hc).2]
    exact Condition.forall_quoteInert_iff hc hrest
  | branch op left right ihleft ihright =>
    obtain ⟨hleft, hright⟩ := storable_branch_iff.1 h
    rw [bareWords, List.forall_mem_append, ihleft hleft (endsQuote_closing_append left rfl),
      ihright hright (endsQuote_closing_append right hrest), holdsClosing_closing_append_iff,
      holdsClosing_closing_append_iff, holdsClosing_connective_append_iff,
      Text.holdsClosing_append hrest, holdsClosing_enclose_iff, holdsClosing_render_iff,
      conditionTokens_branch, unclosed_append_iff, List.forall_mem_append]
    -- what closes a token of the left side is in the right side or follows both
    grind

/-- **The quotes of a rule are inert exactly if the tokens of its conditions
are unclosed.** -/
theorem quotesInert_iff_unclosed {r : Rule} (h : r.Storable) :
    r.QuotesInert ↔ Unclosed r.conditionTokens :=
  (forall_quoteInert_iff h rfl).trans <|
    and_iff_left fun _ _ _ => Text.not_holdsClosing_nil

/-- **The quotes of a rule that was read are inert.** -/
theorem quotesInert_of_parse {t : Text} {r : Rule} (h : Rule.parse t = .ok r) :
    r.QuotesInert := by
  have hsublist := (ofTokens_eq_ok_iff.1 h).conditionTokens_sublist fun _ => fits_of_mem_ofText
  exact (quotesInert_iff_unclosed (storable_of_parse h)).2 ((unclosed_ofText t).sublist hsublist)

/-! ## Reading again -/

/-- A rule with inert quotes is read back from its text exactly if no word
takes the parenthesis that closes a group. -/
theorem parse_render_iff_closesGroups {r : Rule} (h : r.Storable) (hquotes : r.QuotesInert) :
    Rule.parse r.render = .ok r ↔ r.ClosesGroups := by
  rw [parse_render_iff_fits h, fits_bareWords_iff h, and_iff_left hquotes]

/-- **Writing a rule that was read changes nothing but parentheses.** It is read
back as the same rule exactly if no branch below its top ends with a word that
leaves a parenthesis open; its quotes are inert. Of a rule that is put together
by hand this cannot be said: all its groups may be closed and it is still not
read back. -/
theorem parse_render_iff_of_parse :
    (∀ (t : Text) (r : Rule), Rule.parse t = .ok r →
        r.QuotesInert ∧ (Rule.parse r.render = .ok r ↔ r.ClosesGroups))
      ∧ ∃ r : Rule, r.Constructible ∧ r.ClosesGroups ∧ Rule.parse r.render ≠ .ok r := by
  constructor
  · intro t r h
    have hquotes := quotesInert_of_parse h
    exact ⟨hquotes, parse_render_iff_closesGroups (storable_of_parse h) hquotes⟩
  · -- the quote in front of the one literal is closed by the last character of the other
    let left : Condition := ⟨"a".toList, .equal, .bare "'x".toList⟩
    let right : Condition := ⟨"b".toList, .equal, .bare "y'".toList⟩
    have hcondition : ∀ {c : Condition}, c.ReadsBack → (operand c).Constructible := fun hc =>
      .condition hc.parse_render
    have hleft : left.ReadsBack := by decide +kernel
    have hright : right.ReadsBack := by decide +kernel
    refine ⟨and (operand left) (operand right),
      .branch (hcondition hleft) (hcondition hright), by decide +kernel, fun h => ?_⟩
    exact absurd (toOption_eq_some_iff.2 h) (by decide +kernel)

/-- Quotes that open nothing still open nothing when the parentheses around them
go. A word that a blank sets off from the parenthesis behind it takes that
parenthesis once the blank is gone. -/
theorem parse_render_stray_quotes :
    let quotes := Rule.and (.operand ⟨"a".toList, .equal, .bare "'x".toList⟩)
      (.operand ⟨"it's".toList, .greater, .bare "'y".toList⟩)
    let group := Rule.or (.and (.operand ⟨"a".toList, .equal, .bare "'x".toList⟩)
      (.operand ⟨"b".toList, .less, .bare "f(y".toList⟩))
      (.operand ⟨"c".toList, .greater, .bare "2".toList⟩)
    (Rule.parse "((a = 'x)and it's > 'y)".toList = .ok quotes
        ∧ Rule.parse quotes.render = .ok quotes)
      ∧ Rule.parse "a = 'x AND b < f(y OR c > 2".toList = .ok group
      ∧ Rule.parse group.render ≠ .ok group := by
  intro quotes group
  have hquotes : Rule.parse "((a = 'x)and it's > 'y)".toList = .ok quotes :=
    toOption_eq_some_iff.1 (by decide +kernel)
  have hgroup : Rule.parse "a = 'x AND b < f(y OR c > 2".toList = .ok group :=
    toOption_eq_some_iff.1 (by decide +kernel)
  obtain ⟨hread, -⟩ := parse_render_iff_of_parse
  refine ⟨⟨hquotes, (hread _ _ hquotes).2.2 (by decide +kernel)⟩, hgroup, ?_⟩
  rw [Ne, (hread _ _ hgroup).2]
  decide +kernel

end Rule

end AttributeRules
