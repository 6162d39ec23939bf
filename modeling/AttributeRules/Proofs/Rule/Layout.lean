import AttributeRules.Proofs.Rule.Constructible
import AttributeRules.Proofs.Token.Layout
import AttributeRules.Rule.Render

/-!
# The text of a rule as tokens laid out

The text of a rule is laid out from tokens, `Rule.tokens`, and these derive the
rule (`Rule.derives_tokens`). So the text is read back as the rule if it is
scanned as those tokens.

It is also read back as the rule in no other way. Whatever the tokens are that
a rule is derived from, they differ from its own only in parentheses and in
the case of the letters of connectives, and therefore have the same outlines
(`Rule.outlines_of_derives`). Tokens of the text that have these outlines are
the ones it was laid out from, so nothing is left to ask but how the text is
scanned (`Rule.parse_render_iff_tokens`).
-/

namespace AttributeRules

open Token

/-! ## The tokens of the text -/

namespace Rule

/-- Puts the tokens of a child into parentheses where the child is a
branch. -/
def encloseTokens (child : Rule) (tokens : List Token) : List Token :=
  if child.isOperand then tokens else .openParen :: (tokens ++ [.closeParen])

/-- The tokens that the text of a rule is laid out from. -/
def tokens : Rule → List Token
  | operand c => c.tokens
  | branch op left right =>
    encloseTokens left left.tokens ++ .word op.render :: encloseTokens right right.tokens

end Rule

theorem Condition.laid_render (c : Condition) : Laid c.tokens c.render := by
  have hliteral := (laid_singleton c.literal.token).space
  have hsign := (laid_cons (.word c.comparator.render) hliteral).space
  have hfield := laid_cons (.word c.field) hsign
  rw [Literal.text_token] at hfield
  rw [Condition.render_eq]
  exact hfield

namespace Rule

theorem laid_enclose (child : Rule) {tokens : List Token} {t : Text} (h : Laid tokens t) :
    Laid (encloseTokens child tokens) (enclose child t) := by
  unfold encloseTokens enclose
  split
  · exact h
  · exact laid_cons .openParen (h.append (laid_singleton .closeParen))

/-- **The text of a rule is laid out from its tokens.** -/
theorem laid_render (r : Rule) : Laid r.tokens r.render := by
  induction r with
  | operand c => exact c.laid_render
  | branch op left right ihleft ihright =>
    have hright := (laid_cons (.word op.render) (laid_enclose right ihright).space).space
    have hboth := (laid_enclose left ihleft).append hright
    rw [render, List.append_assoc]
    exact hboth

/-- A connective in capitals fits in front of every text that begins with a
blank. -/
theorem fits_connective (op : Connective) (t : Text) : (word op.render).Fits (' ' :: t) := by
  refine fits_space ?_ ?_ t
  · cases op <;> exact ⟨by decide, by decide, by decide⟩
  · cases op <;> decide

/-- A connective in capitals is scanned as such between spaces. -/
theorem ofText_connective_append (op : Connective) (t : Text) :
    Token.ofText (' ' :: (op.render ++ ' ' :: t)) = .word op.render :: Token.ofText t := by
  rw [ofText_space, ofText_word_append (fits_connective op t), ofText_space]

/-! ## The tokens of a rule derive it -/

/-- A branch is derived from its sides as primaries, with its connective in
letters of either case. -/
theorem derives_branch {op : Connective} {keyword : Text} {ltokens rtokens : List Token}
    {left right : Rule} (hkeyword : Text.sameIgnoringCase keyword op.render = true)
    (hleft : Derives .primary ltokens left) (hright : Derives .primary rtokens right) :
    Derives .disjunction (ltokens ++ .word keyword :: rtokens) (branch op left right) := by
  cases op with
  | and => exact .disjunction (.and (.conjunction hleft) hkeyword hright)
  | or => exact .or (.disjunction (.conjunction hleft)) hkeyword (.conjunction hright)

/-- The tokens of a child derive it as a primary. -/
theorem derives_encloseTokens {r : Rule} (h : r.Storable) :
    Derives .primary (encloseTokens r r.tokens) r := by
  induction r with
  | operand c =>
    obtain ⟨-, htoken, -⟩ := Condition.readsBack_iff.1 (storable_operand_iff.1 h)
    exact .primary (.predicate ⟨c.literal.token, rfl, htoken.denotes_token⟩)
  | branch op left right ihleft ihright =>
    obtain ⟨hleft, hright⟩ := storable_branch_iff.1 h
    exact .group (derives_branch (Text.sameIgnoringCase_self _) (ihleft hleft) (ihright hright))

/-- **The tokens of a rule derive it.** -/
theorem derives_tokens {r : Rule} (h : r.Storable) : Derives .disjunction r.tokens r := by
  cases r with
  | operand c => exact .disjunction (.conjunction (derives_encloseTokens h))
  | branch op left right =>
    obtain ⟨hleft, hright⟩ := storable_branch_iff.1 h
    exact derives_branch (Text.sameIgnoringCase_self _) (derives_encloseTokens hleft)
      (derives_encloseTokens hright)

/-! ## Reading back is being scanned as laid out -/

theorem mem_encloseTokens {child : Rule} {tokens : List Token} {token : Token}
    (h : token ∈ encloseTokens child tokens) :
    token ∈ tokens ∨ token = .openParen ∨ token = .closeParen := by
  unfold encloseTokens at h
  split at h
  · exact Or.inl h
  · simp only [List.mem_cons, List.mem_append, List.not_mem_nil, or_false] at h
    rcases h with h | h | h
    · exact Or.inr (Or.inl h)
    · exact Or.inl h
    · exact Or.inr (Or.inr h)

/-- If every token of a child is one on its own, so is every token of the
child in parentheses. -/
theorem fits_of_mem_encloseTokens {child : Rule} {tokens : List Token}
    (h : ∀ token ∈ tokens, token.Fits []) :
    ∀ token ∈ encloseTokens child tokens, token.Fits [] := by
  intro token htoken
  rcases mem_encloseTokens htoken with htoken | rfl | rfl
  · exact h token htoken
  · exact fits_openParen []
  · exact fits_closeParen []

/-- Every token of a rule that can be stored is a token on its own. -/
theorem fits_of_mem_tokens {r : Rule} (h : r.Storable) : ∀ token ∈ r.tokens, token.Fits [] := by
  induction r with
  | operand c =>
    exact (Condition.readsBack_iff_tokens.1 (storable_operand_iff.1 h)).1
  | branch op left right ihleft ihright =>
    obtain ⟨hleft, hright⟩ := storable_branch_iff.1 h
    refine List.forall_mem_append.2 ⟨fits_of_mem_encloseTokens (ihleft hleft), ?_⟩
    refine List.forall_mem_cons.2 ⟨(fits_connective op []).alone, ?_⟩
    exact fits_of_mem_encloseTokens (ihright hright)

@[simp] theorem outlines_encloseTokens (child : Rule) (tokens : List Token) :
    outlines (encloseTokens child tokens) = outlines tokens := by
  unfold encloseTokens
  split
  · rfl
  · simp

/-- The outlines of a branch are those of its sides around one for the
connective. -/
theorem outlines_branch {op : Connective} {ltokens rtokens : List Token} {left right : Rule}
    {keyword : Text} (hleft : outlines ltokens = outlines left.tokens)
    (hkeyword : Text.sameIgnoringCase keyword op.render = true)
    (hright : outlines rtokens = outlines right.tokens) :
    outlines (ltokens ++ .word keyword :: rtokens) = outlines (branch op left right).tokens := by
  rw [tokens, outlines_append, outlines_append, outlines_word_cons, outlines_word_cons,
    outlines_encloseTokens, outlines_encloseTokens, hleft, hright,
    Text.length_eq_of_sameIgnoringCase hkeyword]

/-- **Tokens that derive a rule have the outlines of its own tokens.**
Parentheses have no outline, and a connective is as long in letters of either
case. -/
theorem outlines_of_derives {symbol : Nonterminal} {tokens : List Token} {r : Rule}
    (h : Derives symbol tokens r) (hfits : ∀ token ∈ tokens, token.Fits []) :
    outlines tokens = outlines r.tokens := by
  induction h with
  | predicate hc =>
    obtain ⟨token, rfl, hdenotes⟩ := hc
    have htoken := hfits token (by simp)
    rw [htoken.eq_token hdenotes]
    rfl
  | primary _ ih => exact ih hfits
  | group _ ih =>
    rw [← ih fun token htoken => hfits token (by simp [htoken])]
    simp
  | conjunction _ ih => exact ih hfits
  | and _ hkeyword _ ihleft ihright =>
    exact outlines_branch (ihleft fun token htoken => hfits token (List.mem_append_left _ htoken))
      hkeyword (ihright fun token htoken => hfits token (by simp [htoken]))
  | disjunction _ ih => exact ih hfits
  | or _ hkeyword _ ihleft ihright =>
    exact outlines_branch (ihleft fun token htoken => hfits token (List.mem_append_left _ htoken))
      hkeyword (ihright fun token htoken => hfits token (by simp [htoken]))

/-- **A text that is laid out from tokens of a rule is read as that rule exactly
where it is scanned as these tokens.** -/
theorem parse_eq_ok_iff_of_laid {t : Text} {tokens : List Token} {r : Rule} (hlaid : Laid tokens t)
    (hfits : ∀ token ∈ tokens, token.Fits []) (hderives : Derives .disjunction tokens r) :
    Rule.parse t = .ok r ↔ Token.ofText t = tokens := by
  unfold Rule.parse
  rw [ofTokens_eq_ok_iff]
  constructor
  · intro h
    refine ofText_eq_of_outlines hlaid hfits ?_
    rw [outlines_of_derives h fun _ => fits_of_mem_ofText, outlines_of_derives hderives hfits]
  · intro htokens
    rw [htokens]
    exact hderives

/-- **A text of a rule is read back as the rule exactly where it is scanned as
the tokens it was laid out from.** -/
theorem parse_render_iff_tokens {r : Rule} (h : r.Storable) :
    Rule.parse r.render = .ok r ↔ Token.ofText r.render = r.tokens :=
  parse_eq_ok_iff_of_laid r.laid_render (fits_of_mem_tokens h) (derives_tokens h)

end Rule

end AttributeRules
