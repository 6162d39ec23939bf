import AttributeRules.Literal.Basic
import AttributeRules.Proofs.Token.Boundary

/-!
# Tokens in front of a text

A token **fits** in front of a text if its characters, followed by that text,
are scanned as this very token. `Token.Fits` is the unit in which everything
about scanning is said: the tokens of a text are a chain of tokens each of
which fits in front of what follows it (`Token.ofText_eq_cons_iff`), with
blanks between them.

Parentheses fit everywhere. A quoted literal fits where a quote can close
(`Token.fits_quoted_iff`). A word fits where it can end, except that a word
with a quote in front also needs that nothing behind the quote, however far
away, closes it (`Token.fits_word_iff`). A token that fits somewhere is the
only token of its own text (`Token.Fits.alone`), and its kind can be told
from its characters (`Token.Fits.ofToken_word`).
-/

namespace AttributeRules

/-! ## Words and their quotes -/

namespace Text

/-- Whether a text is shaped like a word, of whose parentheses `depth` remain
open. -/
def IsWord (w : Text) (depth : Nat) : Prop :=
  w ≠ [] ∧ w.head? ≠ some '(' ∧ wordDepth? 0 w = some depth

/-- Whether a word that begins with a quote finds nothing to close it, neither
among its own characters nor in the text after it. -/
def QuoteInert (w rest : Text) : Prop :=
  w.head? = some quoteMark → ¬ HoldsClosing (w.tail ++ rest)

instance (w rest : Text) : Decidable (QuoteInert w rest) :=
  inferInstanceAs (Decidable (_ → _))

/-- Whether a word leaves a parenthesis open: it has more of those that open
than of those that close. -/
def LeavesOpen (w : Text) : Prop := w.count ')' < w.count '('

instance (w : Text) : Decidable (LeavesOpen w) :=
  inferInstanceAs (Decidable (_ < _))

/-- A word leaves a parenthesis open exactly where its scan counts one. -/
theorem IsWord.leavesOpen_iff {w : Text} {depth : Nat} (h : IsWord w depth) :
    LeavesOpen w ↔ depth ≠ 0 := by
  have hcount := count_of_wordDepth? h.2.2
  unfold LeavesOpen
  omega

/-- A word leaves a parenthesis open or can end before a text. -/
theorem IsWord.stopsWord_iff {w : Text} {depth : Nat} (h : IsWord w depth) {rest : Text}
    (hrest : endsQuote rest = true) :
    StopsWord depth rest ↔ (LeavesOpen w → rest.head? ≠ some ')') := by
  rw [h.leavesOpen_iff]
  cases rest with
  | nil => simp
  | cons c t =>
    have hc : isBlank c = true ∨ c = ')' := by simpa [endsQuote] using hrest
    have hclose : isBlank ')' = false := by decide
    show (isBlank c = true ∨ (c = ')' ∧ depth = 0)) ↔ _
    by_cases hparen : c = ')'
    · subst hparen
      simp [hclose]
    · simp [hparen, hc.resolve_right hparen]

/-- The first character of a word is no blank and no parenthesis, and the
others are scanned from depth zero. -/
theorem isWord_cons_iff {c : Char} {u : Text} {depth : Nat} :
    IsWord (c :: u) depth
      ↔ isBlank c = false ∧ c ≠ '(' ∧ c ≠ ')' ∧ wordDepth? 0 u = some depth := by
  unfold IsWord
  rw [wordDepth?, List.head?_cons]
  by_cases hopen : c = '('
  · simp [hopen]
  · by_cases hclose : c = ')'
    · simp [hclose]
    · by_cases hblank : isBlank c = true
      · simp [hblank]
      · simp [hopen, hclose, hblank]

end Text

namespace Token

open Text

/-! ## Fitting -/

/-- Whether a token, put in front of a text, is scanned as that token. -/
def Fits (token : Token) (rest : Text) : Prop :=
  next? (token.text ++ rest) = some (token, rest)

instance (token : Token) (rest : Text) : Decidable (token.Fits rest) :=
  inferInstanceAs (Decidable (_ = some _))

/-- **The first token of a text fits in front of what follows it**, and only
blanks come before it. -/
theorem exists_fits_of_next? {t rest : Text} {token : Token}
    (h : next? t = some (token, rest)) :
    ∃ blanks, (∀ c ∈ blanks, isBlank c = true) ∧ t = blanks ++ (token.text ++ rest)
      ∧ token.Fits rest := by
  induction t with
  | nil => exact absurd h (by simp [next?])
  | cons c t ih =>
    by_cases hc : isBlank c = true
    · rw [next?, if_pos hc] at h
      obtain ⟨blanks, hblanks, rfl, hfits⟩ := ih h
      exact ⟨c :: blanks, List.forall_mem_cons.2 ⟨hc, hblanks⟩, rfl, hfits⟩
    · have hsplit := text_first_append c t
      have hfirst := h
      rw [next?, if_neg hc] at hfirst
      rw [Option.some.inj hfirst] at hsplit
      refine ⟨[], by simp, hsplit.symm, ?_⟩
      unfold Fits
      rw [hsplit]
      exact h

/-- A token begins with a character that is no blank, and is the first thing
scanned from there. -/
theorem Fits.exists_cons {token : Token} {rest : Text} (h : token.Fits rest) :
    ∃ c u, token.text = c :: u ∧ isBlank c = false ∧ first c (u ++ rest) = (token, rest) := by
  cases htext : token.text with
  | nil =>
    unfold Fits at h
    rw [htext, List.nil_append] at h
    exact absurd (length_of_next? h) (Nat.lt_irrefl _)
  | cons c u =>
    unfold Fits at h
    rw [htext, List.cons_append, next?] at h
    split at h
    · -- the token would begin after its own first character
      obtain ⟨blanks, -, hsplit, -⟩ := exists_fits_of_next? h
      have hlength := congrArg List.length hsplit
      rw [htext] at hlength
      simp only [List.length_append, List.length_cons] at hlength
      omega
    · next hc => exact ⟨c, u, rfl, by simpa using hc, Option.some.inj h⟩

/-- What a text without leading blanks begins with: a parenthesis, a quoted
literal where a quote begins it and something closes that quote, and otherwise
a word. -/
theorem first_cases (c : Char) (t : Text) :
    (c = '(' ∧ first c t = (openParen, t))
      ∨ (c = ')' ∧ first c t = (closeParen, t))
      ∨ (c = quoteMark ∧ ∃ inside rest, splitQuoted? t = some (inside, rest)
          ∧ first c t = (quoted (c :: inside), rest))
      ∨ ((c ≠ '(' ∧ c ≠ ')' ∧ (c = quoteMark → splitQuoted? t = none))
          ∧ first c t = (word (c :: (splitWord 0 t).1), (splitWord 0 t).2)) := by
  unfold first
  by_cases hopen : c = '('
  · exact Or.inl ⟨hopen, if_pos hopen⟩
  · rw [if_neg hopen]
    by_cases hclose : c = ')'
    · exact Or.inr (Or.inl ⟨hclose, if_pos hclose⟩)
    · rw [if_neg hclose]
      refine Or.inr (Or.inr ?_)
      by_cases hquote : c = quoteMark
      · rw [if_pos hquote]
        cases hsplit : splitQuoted? t with
        | none => exact Or.inr ⟨⟨hopen, hclose, fun _ => rfl⟩, rfl⟩
        | some p => exact Or.inl ⟨hquote, p.1, p.2, rfl, rfl⟩
      · rw [if_neg hquote]
        exact Or.inr ⟨⟨hopen, hclose, fun h => absurd h hquote⟩, rfl⟩

theorem fits_of_first {token : Token} {c : Char} {u rest : Text} (htext : token.text = c :: u)
    (hc : isBlank c = false) (h : first c (u ++ rest) = (token, rest)) : token.Fits rest := by
  unfold Fits
  rw [htext, List.cons_append, next?, hc, h]
  rfl

@[simp] theorem fits_openParen (rest : Text) : openParen.Fits rest :=
  fits_of_first (u := []) rfl (by decide) rfl

@[simp] theorem fits_closeParen (rest : Text) : closeParen.Fits rest :=
  fits_of_first (u := []) rfl (by decide) rfl

/-- **Where a quoted literal fits**: it ends at the first quote that can close
it, and a quote can close before the text that follows. -/
theorem fits_quoted_iff {q rest : Text} :
    (quoted q).Fits rest
      ↔ q.head? = some quoteMark ∧ EndsAtClosing q.tail ∧ endsQuote rest = true := by
  rw [← splitQuoted?_append_iff]
  constructor
  · intro h
    obtain ⟨c, u, htext, -, hfirst⟩ := h.exists_cons
    obtain rfl : q = c :: u := htext
    obtain ⟨-, heq⟩ | ⟨-, heq⟩ | ⟨hquote, inside, rest', hsplit, heq⟩ | ⟨-, heq⟩ :=
      first_cases c (u ++ rest)
    · exact absurd (heq.symm.trans hfirst) (by simp)
    · exact absurd (heq.symm.trans hfirst) (by simp)
    · obtain ⟨rfl, rfl⟩ : inside = u ∧ rest' = rest := by simpa using heq.symm.trans hfirst
      exact ⟨by rw [hquote]; rfl, hsplit⟩
    · exact absurd (heq.symm.trans hfirst) (by simp)
  · rintro ⟨hhead, hsplit⟩
    cases q with
    | nil => exact absurd hhead (by simp)
    | cons c u =>
      obtain rfl : c = quoteMark := by simpa using hhead
      rw [List.tail_cons] at hsplit
      refine fits_of_first rfl isBlank_quoteMark ?_
      unfold first
      rw [if_neg (by decide), if_neg (by decide), if_pos rfl, hsplit]

/-- **Where a word fits**: it has the shape of one, it can end before the text
that follows, and if a quote begins it then nothing closes that quote. -/
theorem fits_word_iff {w rest : Text} :
    (word w).Fits rest
      ↔ (∃ depth, IsWord w depth ∧ StopsWord depth rest) ∧ QuoteInert w rest := by
  constructor
  · intro h
    obtain ⟨c, u, htext, hblank, hfirst⟩ := h.exists_cons
    obtain rfl : w = c :: u := htext
    obtain ⟨-, heq⟩ | ⟨-, heq⟩ | ⟨-, inside, rest', -, heq⟩ | ⟨⟨hopen, hclose, hquote⟩, heq⟩ :=
      first_cases c (u ++ rest)
    · exact absurd (heq.symm.trans hfirst) (by simp)
    · exact absurd (heq.symm.trans hfirst) (by simp)
    · exact absurd (heq.symm.trans hfirst) (by simp)
    · have hword : splitWord 0 (u ++ rest) = (u, rest) := by
        simpa [Prod.ext_iff] using heq.symm.trans hfirst
      obtain ⟨depth, hdepth, hstops⟩ := splitWord_append_iff.1 hword
      refine ⟨⟨depth, isWord_cons_iff.2 ⟨hblank, hopen, hclose, hdepth⟩, hstops⟩, fun hhead => ?_⟩
      exact splitQuoted?_eq_none_iff.1 (hquote (by simpa using hhead))
  · rintro ⟨⟨depth, hword, hstops⟩, hinert⟩
    cases w with
    | nil => exact absurd rfl hword.1
    | cons c u =>
      obtain ⟨hblank, hopen, hclose, hdepth⟩ := isWord_cons_iff.1 hword
      refine fits_of_first rfl hblank ?_
      have hsplit : (if c = quoteMark then splitQuoted? (u ++ rest) else none) = none := by
        split
        · next hc => exact splitQuoted?_eq_none_iff.2 (hinert (by rw [hc]; rfl))
        · rfl
      unfold first
      rw [if_neg hopen, if_neg hclose, hsplit, splitWord_append_iff.2 ⟨depth, hdepth, hstops⟩]

/-- What follows a word is a place where a quote can close. -/
theorem Fits.endsQuote_of_word {w rest : Text} (h : (word w).Fits rest) :
    endsQuote rest = true := by
  obtain ⟨⟨depth, -, hstops⟩, -⟩ := fits_word_iff.1 h
  exact hstops.endsQuote

/-- What follows the opening quote of a word that fits holds no closing one,
as far as the word goes and beyond it. -/
theorem quoteInert_append_iff {w rest : Text} (h : endsQuote rest = true) :
    QuoteInert w rest
      ↔ QuoteInert w [] ∧ (w.head? = some quoteMark → ¬ HoldsClosing rest) := by
  unfold QuoteInert
  rw [holdsClosing_append h, List.append_nil, not_or, ← imp_and]

/-- **A token that fits somewhere is the only token of its own text.** -/
theorem Fits.alone {token : Token} {rest : Text} (h : token.Fits rest) : token.Fits [] := by
  cases token with
  | openParen => exact fits_openParen []
  | closeParen => exact fits_closeParen []
  | quoted q =>
    obtain ⟨hhead, hends, -⟩ := fits_quoted_iff.1 h
    exact fits_quoted_iff.2 ⟨hhead, hends, rfl⟩
  | word w =>
    obtain ⟨⟨depth, hword, hstops⟩, hinert⟩ := fits_word_iff.1 h
    have halone := ((quoteInert_append_iff hstops.endsQuote).1 hinert).1
    exact fits_word_iff.2 ⟨⟨depth, hword, stopsWord_nil depth⟩, halone⟩

/-- A quoted literal that fits anywhere fits wherever a quote can close. -/
theorem Fits.quoted_before {q rest : Text} (h : (quoted q).Fits [])
    (hrest : endsQuote rest = true) : (quoted q).Fits rest := by
  obtain ⟨hhead, hends, -⟩ := fits_quoted_iff.1 h
  exact fits_quoted_iff.2 ⟨hhead, hends, hrest⟩

/-- A word that fits alone fits before a text that can end it and that closes
no quote at its beginning. -/
theorem Fits.word_before {w rest : Text} (h : (word w).Fits [])
    (hstops : ∀ depth, IsWord w depth → StopsWord depth rest)
    (hquote : w.head? = some quoteMark → ¬ HoldsClosing rest) : (word w).Fits rest := by
  obtain ⟨⟨depth, hword, -⟩, hinert⟩ := fits_word_iff.1 h
  have hrest := hstops depth hword
  exact fits_word_iff.2
    ⟨⟨depth, hword, hrest⟩, (quoteInert_append_iff hrest.endsQuote).2 ⟨hinert, hquote⟩⟩

/-- A word that is a token on its own fits in front of a text that can end it
and that holds nothing to close it. -/
theorem Fits.word_iff {w rest : Text} (h : (word w).Fits [])
    (hrest : endsQuote rest = true) :
    (word w).Fits rest
      ↔ (LeavesOpen w → rest.head? ≠ some ')') ∧ QuoteInert w rest := by
  obtain ⟨⟨depth, hword, -⟩, -⟩ := fits_word_iff.1 h
  rw [fits_word_iff, ← hword.stopsWord_iff hrest]
  refine and_congr_left fun _ => ⟨?_, fun hstops => ⟨depth, hword, hstops⟩⟩
  rintro ⟨depth', hword', hstops⟩
  obtain rfl : depth = depth' := Option.some.inj (hword.2.2.symm.trans hword'.2.2)
  exact hstops

/-- A word that leaves nothing open and begins with no quote fits in front of
every text that begins with a blank. -/
theorem fits_space {w : Text} (hword : IsWord w 0) (hquote : w.head? ≠ some quoteMark)
    (t : Text) : (word w).Fits (' ' :: t) :=
  fits_word_iff.2 ⟨⟨0, hword, stopsWord_space 0 t⟩, fun h => absurd h hquote⟩

/-! ## The kind of a token -/

/-- **A word is no quoted literal**, not even one that begins and ends with a
quote: the second would have closed the first. -/
theorem Fits.ofToken_word {w rest : Text} (h : (word w).Fits rest) :
    Literal.ofToken w = .bare w := by
  obtain ⟨-, hinert⟩ := fits_word_iff.1 h.alone
  have hunquote : Literal.unquote? w = none := by
    cases w with
    | nil => rfl
    | cons c u =>
      rw [Literal.unquote?]
      refine if_neg ?_
      rintro ⟨rfl, hlast⟩
      obtain ⟨s, rfl⟩ := List.getLast?_eq_some_iff.1 hlast
      refine hinert rfl ?_
      rw [List.tail_cons, List.append_nil]
      exact holdsClosing_concat s
  rw [Literal.ofToken, hunquote]

/-- **A quoted literal is a text between quotes**, and is read as one. -/
theorem Fits.ofToken_quoted {q rest : Text} (h : (quoted q).Fits rest) :
    ∃ content, q = inQuotes content ∧ Literal.ofToken q = .quoted content := by
  obtain ⟨hhead, hends, -⟩ := fits_quoted_iff.1 h
  cases q with
  | nil => exact absurd hhead (by simp)
  | cons c u =>
    obtain rfl : c = quoteMark := by simpa using hhead
    obtain ⟨content, hcontent⟩ := exists_concat_of_splitQuoted? hends
    obtain rfl : u = content ++ [quoteMark] := hcontent
    refine ⟨content, rfl, ?_⟩
    rw [Literal.ofToken, Literal.unquote?, if_pos ⟨rfl, by simp⟩, List.dropLast_concat]

/-! ## The tokens of a text -/

/-- A token that fits is the first of a text, and the others are those of what
follows. -/
theorem ofText_append_of_fits {token : Token} {rest : Text} (h : token.Fits rest) :
    ofText (token.text ++ rest) = token :: ofText rest :=
  ofText_eq_cons h

theorem ofText_word_append {w rest : Text} (h : (word w).Fits rest) :
    ofText (w ++ rest) = word w :: ofText rest :=
  ofText_append_of_fits h

theorem ofText_openParen (t : Text) : ofText ('(' :: t) = openParen :: ofText t :=
  ofText_append_of_fits (fits_openParen t)

theorem ofText_closeParen (t : Text) : ofText (')' :: t) = closeParen :: ofText t :=
  ofText_append_of_fits (fits_closeParen t)

/-- A blank in front of a text changes none of its tokens. -/
theorem ofText_cons_of_isBlank {c : Char} (t : Text) (hc : isBlank c = true) :
    ofText (c :: t) = ofText t := by
  have hnext : next? (c :: t) = next? t := by rw [next?, if_pos hc]
  cases h : next? t with
  | none => rw [ofText_eq_nil h, ofText_eq_nil (hnext.trans h)]
  | some p => rw [ofText_eq_cons (h : next? t = some (p.1, p.2)), ofText_eq_cons (hnext.trans h)]

@[simp] theorem ofText_space (t : Text) : ofText (' ' :: t) = ofText t :=
  ofText_cons_of_isBlank t isBlank_space

@[simp] theorem ofText_nil : ofText [] = [] := ofText_eq_nil rfl

/-- A token that fits at the end of a text is the whole of its own text. -/
theorem Fits.ofText_text {token : Token} (h : token.Fits []) : ofText token.text = [token] := by
  have hscan := ofText_append_of_fits h
  rwa [List.append_nil, ofText_nil] at hscan

/-- Blanks in front of a text change none of its tokens. -/
theorem ofText_blanks_append {blanks : Text} (t : Text) (h : ∀ c ∈ blanks, isBlank c = true) :
    ofText (blanks ++ t) = ofText t := by
  induction blanks with
  | nil => rfl
  | cons c blanks ih =>
    obtain ⟨hc, hblanks⟩ := List.forall_mem_cons.1 h
    rw [List.cons_append, ofText_cons_of_isBlank _ hc, ih hblanks]

/-- A blank text has no tokens. -/
theorem ofText_eq_nil_of_isBlank {t : Text} (h : ∀ c ∈ t, isBlank c = true) : ofText t = [] := by
  rw [← List.append_nil t, ofText_blanks_append [] h, ofText_nil]

/-- **The tokens of a text, one at a time**: blanks, a token that fits in
front of the rest, and the tokens of the rest. -/
theorem ofText_eq_cons_iff {t : Text} {token : Token} {tokens : List Token} :
    ofText t = token :: tokens
      ↔ ∃ blanks rest, (∀ c ∈ blanks, isBlank c = true) ∧ t = blanks ++ (token.text ++ rest)
          ∧ token.Fits rest ∧ ofText rest = tokens := by
  constructor
  · intro h
    cases hnext : next? t with
    | none => exact absurd h (by simp [ofText_eq_nil hnext])
    | some p =>
      obtain ⟨first, rest⟩ := p
      rw [ofText_eq_cons hnext] at h
      obtain ⟨rfl, htokens⟩ := List.cons.inj h
      obtain ⟨blanks, hblanks, hsplit, hfits⟩ := exists_fits_of_next? hnext
      exact ⟨blanks, rest, hblanks, hsplit, hfits, htokens⟩
  · rintro ⟨blanks, rest, hblanks, rfl, hfits, rfl⟩
    rw [ofText_blanks_append _ hblanks, ofText_append_of_fits hfits]

/-- **A token in front of a text is scanned as such exactly where it fits.** -/
theorem ofText_append_eq_cons_iff {token : Token} {rest : Text} {tokens : List Token}
    (h : token.Fits []) :
    ofText (token.text ++ rest) = token :: tokens ↔ token.Fits rest ∧ ofText rest = tokens := by
  obtain ⟨c, u, htext, hc, -⟩ := h.exists_cons
  constructor
  · intro h
    obtain ⟨blanks, rest', hblanks, hsplit, hfits, htokens⟩ := ofText_eq_cons_iff.1 h
    have hnil : blanks = [] := by
      cases blanks with
      | nil => rfl
      | cons b blanks =>
        rw [htext] at hsplit
        obtain ⟨rfl, -⟩ := List.cons.inj hsplit
        exact absurd (hblanks c (List.mem_cons_self ..)) (by simp [hc])
    rw [hnil] at hsplit
    obtain rfl : rest = rest' := List.append_cancel_left hsplit
    exact ⟨hfits, htokens⟩
  · rintro ⟨hfits, rfl⟩
    exact ofText_append_of_fits hfits

/-- The tokens at the end of a text are those of one of its ends. -/
theorem exists_suffix_of_ofText {t : Text} {before tokens : List Token}
    (h : ofText t = before ++ tokens) : ∃ rest, ofText rest = tokens := by
  induction before generalizing t with
  | nil => exact ⟨t, h⟩
  | cons token before ih =>
    obtain ⟨-, rest, -, -, -, hrest⟩ := ofText_eq_cons_iff.1 h
    exact ih hrest

/-- **Every token of a text fits in front of something.** -/
theorem fits_of_mem_ofText {t : Text} {token : Token} (h : token ∈ ofText t) :
    token.Fits [] := by
  obtain ⟨before, after, hsplit⟩ := List.append_of_mem h
  obtain ⟨rest, hrest⟩ := exists_suffix_of_ofText hsplit
  obtain ⟨-, rest', -, -, hfits, -⟩ := ofText_eq_cons_iff.1 hrest
  exact hfits.alone

end Token

end AttributeRules
