import AttributeRules.Literal.Parse
import AttributeRules.Proofs.Token.Alone

/-!
# Literals that read back

A literal is written as one token, `Literal.token`, and what matters about a
token where a literal is expected is what it denotes, `Token.Denotes`. A token
of a text denotes exactly one literal, and it is the token of that literal
(`Token.Fits.eq_token`): what the characters between two quotes are was decided
when the token was scanned, and looking at the characters of the token alone
gives the same answer.

So a text is read as a literal exactly if the token of that literal is its only
token (`Literal.parse_eq_ok_iff`), and a literal comes back from its own text
exactly if it is written as a token at all (`Literal.readsBack_iff`).
-/

namespace AttributeRules

/-- A step that can fail gives what is left when its error is forgotten. -/
theorem toOption_eq_some_iff {ε α : Type} {x : Except ε α} {a : α} :
    x.toOption = some a ↔ x = .ok a := by
  cases x with
  | error e => exact iff_of_false (fun h => nomatch h) (fun h => nomatch h)
  | ok b => exact ⟨fun h => congrArg Except.ok (Option.some.inj h),
      fun h => congrArg some (Except.ok.inj h)⟩

/-! ## Tokens and literals -/

/-- What a token denotes where a literal is expected: words and quoted
literals denote what their characters spell, and parentheses denote
nothing. -/
inductive Token.Denotes : Token → Literal → Prop
  /-- A word. -/
  | word (t : Text) : Denotes (.word t) (Literal.ofToken t)
  /-- A quoted literal. -/
  | quoted (t : Text) : Denotes (.quoted t) (Literal.ofToken t)

/-- The token of a literal. -/
def Literal.token : Literal → Token
  | .quoted content => .quoted (Text.inQuotes content)
  | .bare w => .word w

@[simp] theorem Literal.text_token (l : Literal) : l.token.text = l.render := by
  cases l <;> rfl

namespace Token

/-- **A token that fits somewhere is the token of the literal it denotes**:
its kind says the same as its characters. -/
theorem Fits.eq_token {token : Token} {rest : Text} {l : Literal} (h : token.Fits rest)
    (hl : token.Denotes l) : token = l.token := by
  cases hl with
  | word t =>
    rw [h.ofToken_word]
    rfl
  | quoted t =>
    obtain ⟨content, rfl, hcontent⟩ := h.ofToken_quoted
    rw [hcontent]
    rfl

/-- The token of a literal denotes that literal, if it is a token at all. -/
theorem Fits.denotes_token {l : Literal} {rest : Text} (h : l.token.Fits rest) :
    l.token.Denotes l := by
  cases l with
  | bare w =>
    have hw := Denotes.word w
    rw [Fits.ofToken_word h] at hw
    exact hw
  | quoted content =>
    obtain ⟨content', heq, hcontent⟩ := Fits.ofToken_quoted h
    have hq := Denotes.quoted (Text.inQuotes content)
    rw [hcontent] at hq
    obtain rfl : content = content' := by simpa [Text.inQuotes] using heq
    exact hq

end Token

/-! ## Reading -/

namespace Literal

open Token

/-- A text is read as a literal exactly if it has one token and that denotes
the literal. -/
theorem parse_eq_ok_iff_denotes {t : Text} {l : Literal} :
    parse t = .ok l ↔ ∃ token, Token.ofText t = [token] ∧ token.Denotes l := by
  unfold parse
  constructor
  · intro h
    split at h
    · next s hs => exact ⟨_, hs, Except.ok.inj h ▸ .word s⟩
    · next s hs => exact ⟨_, hs, Except.ok.inj h ▸ .quoted s⟩
    · exact absurd h (by simp)
  · rintro ⟨token, htoken, hdenotes⟩
    rw [htoken]
    cases hdenotes <;> rfl

/-- **A text is read as a literal exactly if the token of the literal is its
only token.** -/
theorem parse_eq_ok_iff {t : Text} {l : Literal} :
    parse t = .ok l ↔ Token.ofText t = [l.token] := by
  rw [parse_eq_ok_iff_denotes]
  constructor
  · rintro ⟨token, htoken, hdenotes⟩
    have hfits : token.Fits [] := fits_of_mem_ofText (htoken ▸ List.mem_singleton_self token)
    rw [htoken, hfits.eq_token hdenotes]
  · intro h
    have hfits : l.token.Fits [] := fits_of_mem_ofText (h ▸ List.mem_singleton_self l.token)
    exact ⟨l.token, h, hfits.denotes_token⟩

/-- **A literal comes back from its own text exactly if it is written as a
token.** -/
theorem readsBack_iff {l : Literal} : l.ReadsBack ↔ l.token.Fits [] := by
  unfold ReadsBack
  rw [toOption_eq_some_iff, parse_eq_ok_iff, ← text_token, ofText_text_iff]

end Literal

end AttributeRules
