import AttributeRules.Proofs.Token.Fit

/-!
# Texts laid out from tokens

Tokens can be written down one after the other with blanks between them, or
with none. Nothing says that a text laid out in this way is scanned as the
tokens it was laid out from: a word can swallow a closing parenthesis that was
meant to stand alone, and a quote can take everything up to a later one.

A weak sign is enough to tell that nothing of the kind has happened.
`Token.outlines` keeps of each token that is no parenthesis only its kind and
its length. If the tokens scanned have the outlines of the tokens laid out,
then they are the same tokens, parentheses included
(`Token.ofText_eq_of_outlines`): going from left to right, a parenthesis that
was laid out is scanned as one, and any other token is scanned from where it
was laid out, so that a token of the same length has the same characters.
-/

namespace AttributeRules

namespace Token

/-! ## Layout -/

/-- Whether a text is laid out from tokens: the tokens in order, with blanks
between them that may be missing. -/
def Laid : List Token → Text → Prop
  | [], t => ∀ c ∈ t, isBlank c = true
  | token :: tokens, t => ∃ blanks rest, (∀ c ∈ blanks, isBlank c = true)
      ∧ t = blanks ++ (token.text ++ rest) ∧ Laid tokens rest

theorem laid_cons (token : Token) {tokens : List Token} {t : Text} (h : Laid tokens t) :
    Laid (token :: tokens) (token.text ++ t) :=
  ⟨[], t, by simp, rfl, h⟩

theorem laid_singleton (token : Token) : Laid [token] token.text :=
  ⟨[], [], by simp, (List.append_nil _).symm, by simp [Laid]⟩

/-- Blanks in front do not matter. -/
theorem Laid.blanks_append {tokens : List Token} {blanks t : Text}
    (hblanks : ∀ c ∈ blanks, isBlank c = true) (h : Laid tokens t) :
    Laid tokens (blanks ++ t) := by
  cases tokens with
  | nil => exact List.forall_mem_append.2 ⟨hblanks, h⟩
  | cons token tokens =>
    obtain ⟨blanks', rest, hblanks', rfl, hrest⟩ := h
    exact ⟨blanks ++ blanks', rest, List.forall_mem_append.2 ⟨hblanks, hblanks'⟩,
      (List.append_assoc ..).symm, hrest⟩

theorem Laid.space {tokens : List Token} {t : Text} (h : Laid tokens t) :
    Laid tokens (' ' :: t) :=
  h.blanks_append (List.forall_mem_singleton.2 Text.isBlank_space)

/-- **Texts that are laid out can be joined.** -/
theorem Laid.append {tokens tokens' : List Token} {t t' : Text} (h : Laid tokens t)
    (h' : Laid tokens' t') : Laid (tokens ++ tokens') (t ++ t') := by
  induction tokens generalizing t with
  | nil => exact h'.blanks_append h
  | cons token tokens ih =>
    obtain ⟨blanks, rest, hblanks, rfl, hrest⟩ := h
    refine ⟨blanks, rest ++ t', hblanks, ?_, ih hrest⟩
    simp only [List.append_assoc]

/-! ## Outlines -/

/-- The outline of a token that is no parenthesis: whether it is quoted, and
how long it is. -/
def outline : Token → Option (Bool × Nat)
  | word t => some (false, t.length)
  | quoted t => some (true, t.length)
  | openParen => none
  | closeParen => none

/-- The outlines of several tokens, in order. -/
def outlines (tokens : List Token) : List (Bool × Nat) := tokens.filterMap outline

@[simp] theorem outlines_append (tokens tokens' : List Token) :
    outlines (tokens ++ tokens') = outlines tokens ++ outlines tokens' :=
  List.filterMap_append

@[simp] theorem outlines_nil : outlines [] = [] := rfl

@[simp] theorem outlines_openParen_cons (tokens : List Token) :
    outlines (openParen :: tokens) = outlines tokens := rfl

@[simp] theorem outlines_closeParen_cons (tokens : List Token) :
    outlines (closeParen :: tokens) = outlines tokens := rfl

@[simp] theorem outlines_word_cons (t : Text) (tokens : List Token) :
    outlines (word t :: tokens) = (false, t.length) :: outlines tokens := rfl

/-- A token has an outline if its first character is no parenthesis, and the
outline tells the length of the token. -/
theorem exists_outline {token : Token} {c : Char} {u : Text} (htext : token.text = c :: u)
    (hopen : c ≠ '(') (hclose : c ≠ ')') :
    ∃ isQuoted, token.outline = some (isQuoted, token.text.length) := by
  cases token with
  | word t => exact ⟨false, rfl⟩
  | quoted t => exact ⟨true, rfl⟩
  | openParen => exact absurd (List.cons.inj htext).1.symm hopen
  | closeParen => exact absurd (List.cons.inj htext).1.symm hclose

/-- Two tokens with one outline and the same characters are the same token. -/
theorem eq_of_outline {token token' : Token} {isQuoted : Bool} {n : Nat}
    (h : token.outline = some (isQuoted, n)) (h' : token'.outline = some (isQuoted, n))
    (htext : token.text = token'.text) : token = token' := by
  cases token <;> cases token' <;> simp_all [outline]

/-- A token that is no parenthesis begins with none. -/
theorem Fits.ne_paren {token : Token} {rest : Text} {c : Char} {u : Text} (h : token.Fits rest)
    (htext : token.text = c :: u) (hopen : token ≠ openParen) (hclose : token ≠ closeParen) :
    c ≠ '(' ∧ c ≠ ')' := by
  cases token with
  | word t =>
    obtain ⟨⟨depth, hword, -⟩, -⟩ := fits_word_iff.1 h
    obtain rfl : t = c :: u := htext
    obtain ⟨-, hopen, hclose, -⟩ := Text.isWord_cons_iff.1 hword
    exact ⟨hopen, hclose⟩
  | quoted t =>
    obtain rfl : t = c :: u := htext
    obtain rfl : c = Text.quoteMark := by simpa using (fits_quoted_iff.1 h).1
    exact ⟨by decide, by decide⟩
  | openParen => exact absurd rfl hopen
  | closeParen => exact absurd rfl hclose

/-- The first token of a text that begins with no blank begins with the first
character of the text. -/
theorem exists_ofText_cons {c : Char} (t : Text) (hc : isBlank c = false) :
    ∃ token u rest, token.text = c :: u ∧ u ++ rest = t
      ∧ ofText (c :: t) = token :: ofText rest := by
  obtain ⟨token, rest, hfirst⟩ : ∃ token rest, first c t = (token, rest) := ⟨_, _, rfl⟩
  have hnext : next? (c :: t) = some (token, rest) := by
    rw [next?, hc, hfirst]
    rfl
  have hsplit := text_first_append c t
  rw [hfirst] at hsplit
  obtain ⟨-, -, -, hfits⟩ := exists_fits_of_next? hnext
  obtain ⟨c', u, htext, -, -⟩ := hfits.exists_cons
  rw [htext, List.cons_append] at hsplit
  obtain ⟨rfl, hrest⟩ := List.cons.inj hsplit
  exact ⟨token, u, rest, htext, hrest, ofText_eq_cons hnext⟩

/-- A token laid out in front of a text is what is scanned there, if what is
scanned there has its outline. -/
theorem ofText_append_of_outlines {token : Token} {rest : Text} {outlined : List (Bool × Nat)}
    (h : token.Fits []) (hopen : token ≠ openParen) (hclose : token ≠ closeParen)
    (houtlines : outlines (ofText (token.text ++ rest)) = outlines [token] ++ outlined) :
    ofText (token.text ++ rest) = token :: ofText rest ∧ outlines (ofText rest) = outlined := by
  obtain ⟨c, u, htext, hblank, -⟩ := h.exists_cons
  obtain ⟨hopen, hclose⟩ := h.ne_paren htext hopen hclose
  obtain ⟨token', u', rest', htext', hsplit, hscan⟩ := exists_ofText_cons (u ++ rest) hblank
  obtain ⟨isQuoted, houtline⟩ := exists_outline htext hopen hclose
  obtain ⟨isQuoted', houtline'⟩ := exists_outline htext' hopen hclose
  rw [htext, List.cons_append] at houtlines ⊢
  rw [hscan] at houtlines ⊢
  simp only [outlines, List.filterMap_cons, houtline, houtline', List.filterMap_nil,
    List.singleton_append] at houtlines
  obtain ⟨hsame, hrest⟩ := List.cons.inj houtlines
  obtain ⟨rfl, hlength⟩ := Prod.mk.inj hsame
  -- both tokens are beginnings of the same text, and of one length
  have happend : token'.text ++ rest' = token.text ++ rest := by
    rw [htext, htext', List.cons_append, List.cons_append, hsplit]
  obtain ⟨heq, rfl⟩ := List.append_inj happend hlength
  rw [hlength] at houtline'
  obtain rfl := eq_of_outline houtline' houtline heq
  exact ⟨rfl, hrest⟩

/-- **Tokens with the outlines of those laid out are those laid out.** -/
theorem ofText_eq_of_outlines {tokens : List Token} {t : Text} (h : Laid tokens t)
    (hfits : ∀ token ∈ tokens, token.Fits [])
    (houtlines : outlines (ofText t) = outlines tokens) : ofText t = tokens := by
  induction tokens generalizing t with
  | nil => exact ofText_eq_nil_of_isBlank h
  | cons token tokens ih =>
    obtain ⟨blanks, rest, hblanks, rfl, hrest⟩ := h
    obtain ⟨htoken, htokens⟩ := List.forall_mem_cons.1 hfits
    rw [ofText_blanks_append _ hblanks] at houtlines ⊢
    by_cases hopen : token = openParen
    · subst hopen
      rw [ofText_append_of_fits (fits_openParen rest)] at houtlines ⊢
      rw [ih hrest htokens houtlines]
    · by_cases hclose : token = closeParen
      · subst hclose
        rw [ofText_append_of_fits (fits_closeParen rest)] at houtlines ⊢
        rw [ih hrest htokens houtlines]
      · rw [← List.singleton_append, outlines_append] at houtlines
        obtain ⟨hscan, hlater⟩ := ofText_append_of_outlines htoken hopen hclose houtlines
        rw [hscan, ih hrest htokens hlater]

end Token

end AttributeRules
