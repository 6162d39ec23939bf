import AttributeRules.Proofs.Token.Fit

/-!
# Texts that are one token

A field or a literal that is put together by hand is a text that has not been
scanned yet, and it is of use only if the scan finds it to be one token. This
module says of which texts that is true, by their characters and not by what
the scan does.

A text is one word exactly if it is a **bare word**, `Text.IsBareWord`: it
holds no blank, no parenthesis begins it, every closing parenthesis closes one
that was opened before it, and a quote in front is not closed within the text
(`Token.ofText_eq_word_iff`). A text between two quotes is one quoted literal
exactly if none of its own quotes closes that literal early, which is to say
that none of them comes before a blank or a closing parenthesis
(`Token.fits_inQuotes_iff`). A quote at its very end does no harm, for it is
followed by another.
-/

namespace AttributeRules

namespace Text

/-! ## Parentheses -/

/-- Whether every closing parenthesis of a text closes one that was opened
before it, when `depth` of them are open in front of the text. -/
def ClosesOpened (depth : Nat) (t : Text) : Prop :=
  ∀ before after, t = before ++ ')' :: after → before.count ')' < depth + before.count '('

theorem closesOpened_nil (depth : Nat) : ClosesOpened depth [] := by
  intro before after h
  exact absurd h (by simp)

theorem closesOpened_cons {depth : Nat} {c : Char} {t : Text} :
    ClosesOpened depth (c :: t) ↔ ¬ (c = ')' ∧ depth = 0)
      ∧ ClosesOpened (if c = '(' then depth + 1 else if c = ')' then depth - 1 else depth) t := by
  constructor
  · intro h
    have hfirst : ¬ (c = ')' ∧ depth = 0) := by
      rintro ⟨rfl, rfl⟩
      exact Nat.lt_irrefl _ (h [] t rfl)
    refine ⟨hfirst, fun before after ht => ?_⟩
    have hbefore := h (c :: before) after (congrArg (c :: ·) ht)
    grind
  · rintro ⟨hfirst, ht⟩ before after hsplit
    cases before with
    | nil =>
      obtain ⟨rfl, -⟩ := List.cons.inj hsplit
      simpa [Nat.pos_iff_ne_zero] using hfirst
    | cons b before =>
      obtain ⟨rfl, rfl⟩ := List.cons.inj hsplit
      have hbefore := ht before after rfl
      grind

/-- **A word is scanned to its end exactly if it holds no blank and closes no
parenthesis but its own.** -/
theorem exists_wordDepth?_iff {depth : Nat} {t : Text} :
    (∃ d, wordDepth? depth t = some d)
      ↔ (∀ c ∈ t, isBlank c = false) ∧ ClosesOpened depth t := by
  induction t generalizing depth with
  | nil => exact iff_of_true ⟨depth, rfl⟩ ⟨by simp, closesOpened_nil depth⟩
  | cons c t ih =>
    rw [wordDepth?, closesOpened_cons, List.forall_mem_cons]
    by_cases hstop : isBlank c = true ∨ (c = ')' ∧ depth = 0)
    · rw [if_pos hstop]
      grind
    · rw [if_neg hstop, ih]
      grind

/-! ## Bare words -/

/-- **What makes a text a word of its own.** -/
structure IsBareWord (w : Text) : Prop where
  /-- There is a first character. -/
  ne_nil : w ≠ []
  /-- No blank ends the word. -/
  unblank : ∀ c ∈ w, isBlank c = false
  /-- No parenthesis begins the word; a closing one would close nothing. -/
  head?_ne : w.head? ≠ some '('
  /-- No closing parenthesis ends the word. -/
  closesOpened : ClosesOpened 0 w
  /-- A quote in front begins no literal that ends within the word. -/
  unclosed : w.head? = some quoteMark → ¬ HoldsClosing w.tail

/-- Whether a character is of no account to the scan: neither blank nor a
parenthesis nor a quote. -/
def IsPlain (c : Char) : Prop :=
  isBlank c = false ∧ c ≠ '(' ∧ c ≠ ')' ∧ c ≠ quoteMark

instance (c : Char) : Decidable (IsPlain c) := inferInstanceAs (Decidable (_ ∧ _))

/-- Plain characters make a bare word. -/
theorem isBareWord_of_isPlain {w : Text} (hne : w ≠ []) (h : ∀ c ∈ w, IsPlain c) :
    IsBareWord w where
  ne_nil := hne
  unblank c hc := (h c hc).1
  head?_ne hhead := (h '(' (List.mem_of_mem_head? hhead)).2.1 rfl
  closesOpened before after hsplit := absurd rfl (h ')' (by simp [hsplit])).2.2.1
  unclosed hhead := absurd rfl (h quoteMark (List.mem_of_mem_head? hhead)).2.2.2

/-! ## Quotes within quotes -/

/-- Whether a text holds a quote that would close a literal before the text
ends: one directly followed by a blank or by a closing parenthesis. -/
def HoldsEarlyClosing (t : Text) : Prop :=
  ∃ before c after, t = before ++ quoteMark :: c :: after ∧ (isBlank c = true ∨ c = ')')

theorem not_holdsEarlyClosing_nil : ¬ HoldsEarlyClosing [] := by
  rintro ⟨before, c, after, h, -⟩
  exact absurd h (by simp)

theorem holdsEarlyClosing_cons {c : Char} {t : Text} :
    HoldsEarlyClosing (c :: t)
      ↔ (c = quoteMark ∧ endsQuote (t ++ [quoteMark]) = true) ∨ HoldsEarlyClosing t := by
  constructor
  · rintro ⟨before, d, after, h, hd⟩
    cases before with
    | nil =>
      obtain ⟨rfl, rfl⟩ := List.cons.inj h
      exact .inl ⟨rfl, by simpa [endsQuote] using hd⟩
    | cons b before =>
      obtain ⟨-, rfl⟩ := List.cons.inj h
      exact .inr ⟨before, d, after, rfl, hd⟩
  · rintro (⟨rfl, hends⟩ | ⟨before, d, after, rfl, hd⟩)
    · cases t with
      | nil => exact absurd hends (by decide)
      | cons d t => exact ⟨[], d, t, rfl, by simpa [endsQuote] using hends⟩
    · exact ⟨c :: before, d, after, rfl, hd⟩

/-- **A text closed by a quote ends at its first closing quote exactly if it
holds none that closes early.** -/
theorem endsAtClosing_concat_iff {t : Text} :
    EndsAtClosing (t ++ [quoteMark]) ↔ ¬ HoldsEarlyClosing t := by
  induction t with
  | nil => exact iff_of_true (by decide) not_holdsEarlyClosing_nil
  | cons c t ih =>
    rw [holdsEarlyClosing_cons, not_or, ← ih]
    unfold EndsAtClosing
    rw [List.cons_append, splitQuoted?]
    by_cases hcloses : c = quoteMark ∧ endsQuote (t ++ [quoteMark]) = true
    · rw [if_pos hcloses]
      simp [hcloses]
    · rw [if_neg hcloses, and_iff_right hcloses, Option.map_eq_some_iff]
      simp

instance (t : Text) : Decidable (HoldsEarlyClosing t) :=
  decidable_of_iff (¬ EndsAtClosing (t ++ [quoteMark])) (by
    rw [endsAtClosing_concat_iff, Classical.not_not])

/-- A text without quotes closes nothing. -/
theorem not_holdsEarlyClosing_of_isPlain {t : Text} (h : ∀ c ∈ t, IsPlain c) :
    ¬ HoldsEarlyClosing t := by
  rintro ⟨before, c, after, rfl, -⟩
  exact (h quoteMark (by simp)).2.2.2 rfl

end Text

namespace Token

open Text

/-! ## One token -/

/-- **A token is scanned from its own text exactly if it fits at the end.** -/
theorem ofText_text_iff {token : Token} : ofText token.text = [token] ↔ token.Fits [] :=
  ⟨fun h => fits_of_mem_ofText (h.symm ▸ List.mem_singleton_self token), Fits.ofText_text⟩

/-- A word fits at the end exactly if it is a bare word. -/
theorem fits_word_iff_isBareWord {w : Text} : (word w).Fits [] ↔ IsBareWord w := by
  rw [fits_word_iff]
  constructor
  · rintro ⟨⟨depth, ⟨hne, hopen, hdepth⟩, -⟩, hinert⟩
    obtain ⟨hblank, hcloses⟩ := exists_wordDepth?_iff.1 ⟨depth, hdepth⟩
    unfold QuoteInert at hinert
    rw [List.append_nil] at hinert
    exact ⟨hne, hblank, hopen, hcloses, hinert⟩
  · rintro ⟨hne, hblank, hopen, hcloses, hinert⟩
    obtain ⟨depth, hdepth⟩ := exists_wordDepth?_iff.2 ⟨hblank, hcloses⟩
    refine ⟨⟨depth, ⟨hne, hopen, hdepth⟩, stopsWord_nil depth⟩, ?_⟩
    unfold QuoteInert
    rwa [List.append_nil]

/-- **A text is one word exactly if it is a bare word.** -/
theorem ofText_eq_word_iff {w : Text} : ofText w = [word w] ↔ IsBareWord w :=
  (@ofText_text_iff (word w)).trans fits_word_iff_isBareWord

/-- A word of plain characters is a token. -/
theorem fits_of_isPlain {w : Text} (hne : w ≠ []) (h : ∀ c ∈ w, IsPlain c) :
    (word w).Fits [] :=
  fits_word_iff_isBareWord.2 (isBareWord_of_isPlain hne h)

/-- **A text between quotes is one quoted literal exactly if none of its own
quotes closes early.** -/
theorem fits_inQuotes_iff {content : Text} :
    (quoted (inQuotes content)).Fits [] ↔ ¬ HoldsEarlyClosing content := by
  rw [fits_quoted_iff, ← endsAtClosing_concat_iff]
  exact ⟨fun h => h.2.1, fun h => ⟨rfl, h, rfl⟩⟩

end Token

instance (w : Text) : Decidable w.IsBareWord :=
  decidable_of_iff ((Token.word w).Fits []) Token.fits_word_iff_isBareWord

example : Text.IsBareWord "f('x')".toList ∧ ¬ Text.IsBareWord "'x'".toList := by decide

end AttributeRules
