import AttributeRules.Condition.Parse
import AttributeRules.Proofs.Literal.ReadBack
import AttributeRules.Proofs.Token.Spacing

/-!
# Conditions that read back

A condition is stored as its text, so a condition is only as good as what its
text is read as. `Condition.readsBack_iff` says exactly which conditions come
back: the field is a word on its own, the literal is a token on its own, and a
field that begins with a quote is not closed by one in the literal.

Nothing checks this when a condition is read in the middle of a longer text,
and nothing has to: three successive tokens of any text make a condition that
comes back from its own (`Condition.readsBack_of_ofText`). What it takes for a
condition to come back is that its tokens are unclosed
(`Condition.readsBack_iff_tokens`). The tokens of a text are, and so are any
three of them.
-/

namespace AttributeRules

/-- Two steps that can fail succeed together exactly when both do. -/
theorem bind_eq_ok_iff {ε α β : Type} {x : Except ε α} {f : α → Except ε β} {b : β} :
    x >>= f = .ok b ↔ ∃ a, x = .ok a ∧ f a = .ok b := by
  cases x with
  | error e => exact iff_of_false (fun h => nomatch h) (fun ⟨_, h, _⟩ => nomatch h)
  | ok a => exact ⟨fun h => ⟨a, rfl, h⟩, fun ⟨_, h, hf⟩ => Except.ok.inj h ▸ hf⟩

/-! ## What the three tokens of a condition are -/

theorem Comparator.ofText?_eq_some_iff {t : Text} {c : Comparator} :
    Comparator.ofText? t = some c ↔ t = c.render := by
  constructor
  · intro h
    unfold Comparator.ofText? at h
    split at h
    · cases h
      rfl
    · cases h
      rfl
    · cases h
      rfl
    · exact absurd h (by simp)
  · rintro rfl
    exact Comparator.ofText?_render c

/-- Whether tokens are a field, a comparator and a literal that spell a
condition. -/
def Condition.SpelledBy (c : Condition) (tokens : List Token) : Prop :=
  ∃ token, tokens = [.word c.field, .word c.comparator.render, token] ∧ token.Denotes c.literal

/-- Whether three successive ones of several tokens spell a condition. -/
def Condition.SpelledIn (c : Condition) (tokens : List Token) : Prop :=
  ∃ before middle after, tokens = before ++ (middle ++ after) ∧ c.SpelledBy middle

namespace Comparator

/-- No quote begins the sign of a comparator. -/
theorem head?_render_ne (c : Comparator) : c.render.head? ≠ some Text.quoteMark := by
  cases c <;> decide

/-- Nothing is closed by the sign of a comparator. -/
theorem not_holdsClosing_render (c : Comparator) : ¬ Text.HoldsClosing c.render := by
  cases c <;> decide

end Comparator

namespace Token

theorem asField_eq_ok_iff {token : Token} {field : Text} :
    token.asField = .ok field ↔ token = .word field := by
  cases token <;> simp [asField]

theorem asComparator_eq_ok_iff {token : Token} {field : Text} {c : Comparator} :
    token.asComparator field = .ok c ↔ token = .word c.render := by
  cases token with
  | word t =>
    rw [word.injEq, ← Comparator.ofText?_eq_some_iff]
    unfold asComparator Comparator.parse
    cases h : Comparator.ofText? t <;> simp [h]
  | quoted t => simp [asComparator]
  | openParen => simp [asComparator]
  | closeParen => simp [asComparator]

theorem asLiteral_eq_ok_iff {token : Token} {field : Text} {c : Comparator} {l : Literal} :
    token.asLiteral field c = .ok l ↔ token.Denotes l := by
  constructor
  · intro h
    cases token with
    | word t => exact Except.ok.inj h ▸ Denotes.word t
    | quoted t => exact Except.ok.inj h ▸ Denotes.quoted t
    | openParen => exact absurd h (by simp [asLiteral])
    | closeParen => exact absurd h (by simp [asLiteral])
  · rintro (⟨t⟩ | ⟨t⟩)
    · rfl
    · rfl

/-- The sign of a comparator fits in front of every text that begins with a
blank. -/
theorem fits_comparator (c : Comparator) (t : Text) : (word c.render).Fits (' ' :: t) := by
  refine fits_space ?_ c.head?_render_ne t
  cases c <;> exact ⟨by decide, by decide, by decide⟩

end Token

namespace Condition

open Token

/-- **Reading tokens as a condition succeeds exactly on the three that spell
one.** -/
theorem ofTokens_eq_ok_iff {tokens : List Token} {c : Condition} :
    ofTokens tokens = .ok c ↔ c.SpelledBy tokens := by
  unfold SpelledBy
  match tokens with
  | [] => simp [ofTokens]
  | [first] => simp [ofTokens, bind_eq_ok_iff]
  | [first, second] => simp [ofTokens, bind_eq_ok_iff]
  | [first, second, third] =>
    simp only [ofTokens, bind_eq_ok_iff, asField_eq_ok_iff, asComparator_eq_ok_iff,
      asLiteral_eq_ok_iff, Except.ok.injEq]
    constructor
    · rintro ⟨field, rfl, comparator, rfl, literal, hdenotes, rfl⟩
      exact ⟨third, rfl, hdenotes⟩
    · rintro ⟨token, htokens, hdenotes⟩
      obtain ⟨rfl, rfl, rfl⟩ := by simpa using htokens
      exact ⟨_, rfl, _, rfl, _, hdenotes, rfl⟩
  | first :: second :: third :: next :: tokens => simp [ofTokens, bind_eq_ok_iff]

theorem SpelledBy.spelledIn {c : Condition} {tokens : List Token} (h : c.SpelledBy tokens) :
    c.SpelledIn tokens :=
  ⟨[], tokens, [], (List.append_nil _).symm, h⟩

theorem SpelledIn.append_right {c : Condition} {tokens : List Token} (h : c.SpelledIn tokens)
    (more : List Token) : c.SpelledIn (tokens ++ more) := by
  obtain ⟨before, middle, after, rfl, hspelled⟩ := h
  exact ⟨before, middle, after ++ more, by simp, hspelled⟩

theorem SpelledIn.append_left {c : Condition} {tokens : List Token} (h : c.SpelledIn tokens)
    (more : List Token) : c.SpelledIn (more ++ tokens) := by
  obtain ⟨before, middle, after, rfl, hspelled⟩ := h
  exact ⟨more ++ before, middle, after, by simp, hspelled⟩

/-! ## Reading back is being scanned as three tokens -/

/-- The text of a condition, one part after the other. -/
theorem render_eq (c : Condition) :
    c.render = c.field ++ ' ' :: (c.comparator.render ++ ' ' :: c.literal.render) := by
  simp [render]

/-- The three tokens of a condition. -/
def tokens (c : Condition) : List Token :=
  [.word c.field, .word c.comparator.render, c.literal.token]

/-- The text of a condition is its three tokens with single spaces between
them. -/
theorem spaced_tokens (c : Condition) : spaced c.tokens = c.render := by
  rw [tokens, spaced_cons_cons, spaced_cons_cons, spaced_singleton, Literal.text_token, render_eq]
  rfl

/-- **Tokens of a text that spell a condition are the three of the
condition.** -/
theorem SpelledBy.eq_tokens {c : Condition} {tokens : List Token} (h : c.SpelledBy tokens)
    (hfits : ∀ token ∈ tokens, token.Fits []) : tokens = c.tokens := by
  obtain ⟨token, rfl, hdenotes⟩ := h
  rw [(hfits token (by simp)).eq_token hdenotes]
  rfl

/-- **A text is read as a condition exactly where it is scanned as the three
tokens of the condition.** -/
theorem parse_eq_ok_iff {t : Text} {c : Condition} :
    parse t = .ok c ↔ Token.ofText t = c.tokens := by
  unfold parse
  rw [ofTokens_eq_ok_iff]
  constructor
  · intro h
    exact h.eq_tokens fun _ => fits_of_mem_ofText
  · intro h
    have hliteral : c.literal.token ∈ Token.ofText t := by simp [h, tokens]
    exact ⟨c.literal.token, h, (fits_of_mem_ofText hliteral).denotes_token⟩

/-- **A condition reads back exactly if its tokens are tokens on their own and
are unclosed.** -/
theorem readsBack_iff_tokens {c : Condition} :
    c.ReadsBack ↔ (∀ token ∈ c.tokens, token.Fits []) ∧ Unclosed c.tokens := by
  rw [← ofText_spaced_iff, spaced_tokens, ← parse_eq_ok_iff]
  exact toOption_eq_some_iff

/-- **The exact conditions that read back**: the sign of a comparator is a word
wherever it stands, and opens and closes no quote. -/
theorem readsBack_iff {c : Condition} :
    c.ReadsBack
      ↔ (word c.field).Fits [] ∧ c.literal.token.Fits []
          ∧ (c.field.head? = some Text.quoteMark → ¬ Text.HoldsClosing c.literal.render) := by
  have hsign : (word c.comparator.render).Fits [] := (fits_comparator c.comparator []).alone
  have hopens := c.comparator.head?_render_ne
  have hcloses := c.comparator.not_holdsClosing_render
  rw [readsBack_iff_tokens, tokens, Unclosed]
  simp [OpensQuote, hsign, hopens, hcloses, and_assoc]

/-- **A condition read anywhere in a text reads back**: three successive
tokens that spell a condition spell one that comes back from its own text. -/
theorem readsBack_of_ofText {t : Text} {c : Condition} (h : c.SpelledIn (Token.ofText t)) :
    c.ReadsBack := by
  obtain ⟨before, middle, after, htokens, hspelled⟩ := h
  have hsublist : middle.Sublist (Token.ofText t) := by
    rw [htokens]
    exact (List.sublist_append_left ..).trans (List.sublist_append_right ..)
  have hfits : ∀ token ∈ middle, token.Fits [] := fun _ htoken =>
    fits_of_mem_ofText (hsublist.mem htoken)
  obtain rfl := hspelled.eq_tokens hfits
  exact readsBack_iff_tokens.2 ⟨hfits, (unclosed_ofText t).sublist hsublist⟩

/-- Every condition that is read from a text of its own reads back. -/
theorem readsBack_of_parse {t : Text} {c : Condition} (h : parse t = .ok c) : c.ReadsBack :=
  readsBack_of_ofText (ofTokens_eq_ok_iff.1 h).spelledIn

/-- **A condition that is put together by hand is one that reads back**, and
every one that does can be. -/
theorem build_eq_ok_iff {field : Text} {comparator : Comparator} {literal : Literal}
    {c : Condition} :
    build field comparator literal = .ok c ↔ c = ⟨field, comparator, literal⟩ ∧ c.ReadsBack := by
  by_cases hreads : (⟨field, comparator, literal⟩ : Condition).ReadsBack
  · rw [show build field comparator literal = .ok ⟨field, comparator, literal⟩ from if_pos hreads]
    constructor
    · intro h
      obtain rfl := Except.ok.inj h
      exact ⟨rfl, hreads⟩
    · rintro ⟨rfl, -⟩
      rfl
  · rw [show build field comparator literal = .error (.notField field) from if_neg hreads]
    refine iff_of_false (fun h => nomatch h) ?_
    rintro ⟨rfl, h⟩
    exact hreads h

/-- A condition that reads back is read from its text. -/
theorem ReadsBack.parse_render {c : Condition} (h : c.ReadsBack) : parse c.render = .ok c :=
  toOption_eq_some_iff.1 h

end Condition

end AttributeRules
