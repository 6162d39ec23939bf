import AttributeRules.Proofs.Token.Words
import AttributeRules.Rule.Nested

/-!
# Blanks between tokens

However many blanks stand between two tokens, or none, the text should be read
alike. The scan does not make this plain. A quote closes a literal only before
a blank, a closing parenthesis or the end, and a closing parenthesis belongs to
a word or stands alone depending on what the word has opened, so a blank that
is put in or left out might well open or close something.

That it never does can be seen from the tokens alone. A text holds a closing
quote exactly if one of its tokens does, wherever the blanks are
(`Token.holdsClosing_iff_ofText`). The tokens of a text are therefore
**unclosed**: none of them is a word with a quote in front which a later one
closes (`Token.unclosed_ofText`). Conversely, unclosed tokens that are tokens
on their own are scanned again when they are written with one space between
any two (`Token.ofText_spaced_iff`), and this is what `Text.respaced` does with
the tokens of a text.

For two texts of which the second begins with a blank the same consideration
says when they can be scanned one after the other (`Token.ofText_append_iff`).
-/

namespace AttributeRules

@[simp] theorem Text.endsWord_space (t : Text) : endsWord (' ' :: t) = true := isBlank_space

namespace Token

open Text

/-- Whether a token is a word that begins with a quote. -/
def OpensQuote : Token → Prop
  | word w => w.head? = some quoteMark
  | _ => False

instance : (token : Token) → Decidable token.OpensQuote
  | word w => inferInstanceAs (Decidable (w.head? = some quoteMark))
  | quoted _ => inferInstanceAs (Decidable False)
  | openParen => inferInstanceAs (Decidable False)
  | closeParen => inferInstanceAs (Decidable False)

/-- **No word that begins with a quote comes before a token that closes
it.** -/
def Unclosed (tokens : List Token) : Prop :=
  tokens.Pairwise fun token later => token.OpensQuote → ¬ HoldsClosing later.text

/-- Unclosed tokens can follow one another if nothing in the second part closes
a quote that begins a word of the first. -/
theorem unclosed_append_iff {tokens tokens' : List Token} :
    Unclosed (tokens ++ tokens') ↔ Unclosed tokens ∧ Unclosed tokens'
      ∧ ∀ token ∈ tokens, ∀ later ∈ tokens', token.OpensQuote → ¬ HoldsClosing later.text :=
  List.pairwise_append

/-! ## Closing quotes, token by token -/

/-- A text without tokens is blank. -/
theorem isBlank_of_ofText_eq_nil {t : Text} (h : ofText t = []) : ∀ c ∈ t, isBlank c = true := by
  induction t with
  | nil => simp
  | cons c t ih =>
    by_cases hc : isBlank c = true
    · rw [ofText_cons_of_isBlank t hc] at h
      exact List.forall_mem_cons.2 ⟨hc, ih h⟩
    · obtain ⟨_, _, _, -, -, hscan⟩ := exists_ofText_cons t (Bool.eq_false_iff.2 hc)
      exact absurd (hscan.symm.trans h) (by simp)

/-- A closing quote behind a token that fits is one of the token or one of
what follows. -/
theorem Fits.holdsClosing_append_iff {token : Token} {rest : Text} (h : token.Fits rest) :
    HoldsClosing (token.text ++ rest) ↔ HoldsClosing token.text ∨ HoldsClosing rest := by
  cases token with
  | word w => exact holdsClosing_append h.endsQuote_of_word
  | quoted q => exact holdsClosing_append (fits_quoted_iff.1 h).2.2
  | openParen => simp
  | closeParen => simp

/-- **A text holds a closing quote exactly if one of its tokens does.** -/
theorem holdsClosing_iff_ofText {t : Text} :
    HoldsClosing t ↔ ∃ token ∈ ofText t, HoldsClosing token.text := by
  induction htokens : ofText t generalizing t with
  | nil =>
    exact iff_of_false (not_holdsClosing_of_isBlank (isBlank_of_ofText_eq_nil htokens)) (by simp)
  | cons token tokens ih =>
    obtain ⟨blanks, rest, hblanks, rfl, hfits, hrest⟩ := ofText_eq_cons_iff.1 htokens
    rw [holdsClosing_blanks_append hblanks, hfits.holdsClosing_append_iff, ih hrest]
    simp only [List.mem_cons, exists_eq_or_imp]

/-- Nothing closes a word that begins with a quote where that word fits. -/
theorem Fits.not_holdsClosing {token : Token} {rest : Text} (h : token.Fits rest)
    (hopens : token.OpensQuote) : ¬ HoldsClosing rest := by
  cases token with
  | word w =>
    have hinert := (fits_word_iff.1 h).2
    exact ((quoteInert_append_iff h.endsQuote_of_word).1 hinert).2 hopens
  | quoted q => exact hopens.elim
  | openParen => exact hopens.elim
  | closeParen => exact hopens.elim

/-- **The tokens of a text are unclosed.** -/
theorem unclosed_ofText (t : Text) : Unclosed (ofText t) := by
  induction htokens : ofText t generalizing t with
  | nil => exact List.Pairwise.nil
  | cons token tokens ih =>
    obtain ⟨blanks, rest, -, rfl, hfits, hrest⟩ := ofText_eq_cons_iff.1 htokens
    refine List.pairwise_cons.2 ⟨fun later hlater hopens hcloses => ?_, ih rest hrest⟩
    refine hfits.not_holdsClosing hopens (holdsClosing_iff_ofText.2 ⟨later, ?_, hcloses⟩)
    rw [hrest]
    exact hlater

/-- A text is laid out from its tokens. -/
theorem laid_ofText (t : Text) : Laid (ofText t) t := by
  induction htokens : ofText t generalizing t with
  | nil => exact isBlank_of_ofText_eq_nil htokens
  | cons token tokens ih =>
    obtain ⟨blanks, rest, hblanks, rfl, -, hrest⟩ := ofText_eq_cons_iff.1 htokens
    exact ⟨blanks, rest, hblanks, rfl, ih rest hrest⟩

/-! ## Texts one after the other -/

/-- A token that fits still does when a text is added that begins with a blank
and closes no quote of the token. -/
theorem Fits.append {token : Token} {rest t : Text} (h : token.Fits rest)
    (ht : endsWord t = true) (hquote : token.OpensQuote → ¬ HoldsClosing t) :
    token.Fits (rest ++ t) := by
  have hends := endsQuote_of_endsWord ht
  cases token with
  | word w =>
    obtain ⟨⟨depth, hword, hstops⟩, hinert⟩ := fits_word_iff.1 h
    refine fits_word_iff.2 ⟨⟨depth, hword, ?_⟩, fun hhead => ?_⟩
    · cases rest with
      | nil => exact stopsWord_of_endsWord ht depth
      | cons c rest => exact hstops
    · rw [← List.append_assoc, holdsClosing_append hends, not_or]
      exact ⟨hinert hhead, hquote hhead⟩
  | quoted q =>
    obtain ⟨hhead, hclosing, hrest⟩ := fits_quoted_iff.1 h
    exact fits_quoted_iff.2 ⟨hhead, hclosing, (endsQuote_append rest hends).trans hrest⟩
  | openParen => exact fits_openParen _
  | closeParen => exact fits_closeParen _

/-- **Where a blank comes between them, two texts are scanned one after the
other exactly if nothing in the second closes a quote that begins a word of the
first.** -/
theorem ofText_append_iff {s t : Text} (ht : endsWord t = true) :
    ofText (s ++ t) = ofText s ++ ofText t
      ↔ ∀ token ∈ ofText s, token.OpensQuote → ¬ HoldsClosing t := by
  constructor
  · intro h token htoken hopens hcloses
    obtain ⟨later, hlater, hcloses⟩ := holdsClosing_iff_ofText.1 hcloses
    have hunclosed := unclosed_ofText (s ++ t)
    rw [h] at hunclosed
    exact (unclosed_append_iff.1 hunclosed).2.2 token htoken later hlater hopens hcloses
  · intro hquotes
    induction htokens : ofText s generalizing s with
    | nil => exact ofText_blanks_append t (isBlank_of_ofText_eq_nil htokens)
    | cons token tokens ih =>
      rw [htokens] at hquotes
      obtain ⟨htoken, hlater⟩ := List.forall_mem_cons.1 hquotes
      obtain ⟨blanks, rest, hblanks, rfl, hfits, hrest⟩ := ofText_eq_cons_iff.1 htokens
      rw [List.append_assoc, List.append_assoc, ofText_blanks_append _ hblanks,
        ofText_append_of_fits (hfits.append ht htoken), ih (hrest ▸ hlater) hrest,
        List.cons_append]

/-! ## Tokens with single spaces between them -/

/-- The texts of some tokens with one space between any two. -/
def spaced (tokens : List Token) : Text := [' '].intercalate (tokens.map text)

@[simp] theorem spaced_nil : spaced [] = [] := rfl

@[simp] theorem spaced_singleton (token : Token) : spaced [token] = token.text :=
  List.intercalate_singleton

theorem spaced_cons_cons (token next : Token) (tokens : List Token) :
    spaced (token :: next :: tokens) = token.text ++ ' ' :: spaced (next :: tokens) := by
  unfold spaced
  rw [List.map_cons, List.map_cons, List.intercalate_cons_cons, List.append_assoc]
  rfl

/-- Spaces between tokens add no closing quote. -/
theorem holdsClosing_spaced_iff {tokens : List Token} :
    HoldsClosing (spaced tokens) ↔ ∃ token ∈ tokens, HoldsClosing token.text := by
  induction tokens with
  | nil => simp
  | cons token tokens ih =>
    cases tokens with
    | nil => simp
    | cons next tokens =>
      rw [spaced_cons_cons, holdsClosing_append_space, ih]
      simp only [List.mem_cons, exists_eq_or_imp]

/-- **Tokens with spaces between them are scanned again exactly if each is a
token on its own and none is closed by a later one.** -/
theorem ofText_spaced_iff {tokens : List Token} :
    ofText (spaced tokens) = tokens ↔ (∀ token ∈ tokens, token.Fits []) ∧ Unclosed tokens := by
  constructor
  · intro h
    have hunclosed := unclosed_ofText (spaced tokens)
    rw [h] at hunclosed
    exact ⟨fun token htoken => fits_of_mem_ofText (h.symm ▸ htoken), hunclosed⟩
  · rintro ⟨hfits, hunclosed⟩
    induction tokens with
    | nil => exact ofText_nil
    | cons token tokens ih =>
      obtain ⟨htoken, htokens⟩ := List.forall_mem_cons.1 hfits
      obtain ⟨hlater, hunclosed⟩ := List.pairwise_cons.1 hunclosed
      cases tokens with
      | nil =>
        rw [spaced_singleton]
        exact htoken.ofText_text
      | cons next tokens =>
        have hquote : token.OpensQuote → ¬ HoldsClosing (' ' :: spaced (next :: tokens)) := by
          intro hopens hcloses
          rw [holdsClosing_space, holdsClosing_spaced_iff] at hcloses
          obtain ⟨later, hmem, hcloses⟩ := hcloses
          exact hlater later hmem hopens hcloses
        have hbefore : token.Fits (' ' :: spaced (next :: tokens)) :=
          htoken.append (endsWord_space _) hquote
        rw [spaced_cons_cons, ofText_append_of_fits hbefore, ofText_space, ih htokens hunclosed]

end Token

/-! ## Texts with single spaces between their tokens -/

/-- The text with one space between any two of its tokens, and no other blank
outside of these. -/
def Text.respaced (t : Text) : Text := Token.spaced (Token.ofText t)

/-- **A text keeps its tokens when it is spaced anew.** -/
theorem Token.ofText_respaced (t : Text) : ofText t.respaced = ofText t :=
  ofText_spaced_iff.2 ⟨fun _ => fits_of_mem_ofText, unclosed_ofText t⟩

/-- **Blanks between tokens mean nothing.** A text spaced anew has the same
tokens, and is read as the same rule and as the same condition, or refused for
the same cause. -/
theorem Text.parse_respaced (t : Text) :
    Token.ofText t.respaced = Token.ofText t ∧ Rule.parse t.respaced = Rule.parse t
      ∧ Condition.parse t.respaced = Condition.parse t := by
  have htokens := Token.ofText_respaced t
  refine ⟨htokens, ?_, ?_⟩
  · unfold Rule.parse
    rw [htokens]
  · unfold Condition.parse
    rw [htokens]

example : Text.respaced "(a  = 'b  c')".toList = "( a = 'b  c' )".toList := by decide +kernel

end AttributeRules
