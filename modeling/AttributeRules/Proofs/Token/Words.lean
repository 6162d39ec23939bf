import AttributeRules.Proofs.Token.Layout

/-!
# Words and tokens

A text can be cut at its blanks alone, into words, or scanned for tokens. Words
that are tokens on their own need not be tokens of the text, for a word that
begins with a quote may be closed by a quote in a later word, and then all up to
there is one quoted literal. Nothing else can go wrong
(`Token.ofText_eq_iff_of_words`): a blank stands behind every word but the
last, so no word can swallow a parenthesis of another.

The quote that closes a literal is followed by a blank, a closing parenthesis
or the end, so whether there is one in a text can be asked of its words one by
one (`Text.holdsClosing_iff_words`).
-/

namespace AttributeRules

namespace Text

/-! ## The words of a text -/

/-- Whether a text could be a word: it is not empty and holds no blank. -/
def IsRun (w : Text) : Prop := w ≠ [] ∧ ∀ c ∈ w, isBlank c = false

/-- **A text is blank or begins with a word**, before which there are only
blanks and after which it ends or goes on with one. -/
theorem words_cases (t : Text) :
    ((∀ c ∈ t, isBlank c = true) ∧ words t = [])
      ∨ ∃ blanks w rest, (∀ c ∈ blanks, isBlank c = true) ∧ t = blanks ++ (w ++ rest) ∧ IsRun w
          ∧ endsWord rest = true ∧ words t = w :: words rest := by
  induction t with
  | nil => exact .inl ⟨by simp, rfl⟩
  | cons c t ih =>
    rw [words]
    by_cases hc : isBlank c = true
    · rw [if_pos hc]
      obtain ⟨ht, hwords⟩ | ⟨blanks, w, rest, hblanks, ht, hw, hrest, hwords⟩ := ih
      · exact .inl ⟨List.forall_mem_cons.2 ⟨hc, ht⟩, hwords⟩
      · exact .inr ⟨c :: blanks, w, rest, List.forall_mem_cons.2 ⟨hc, hblanks⟩,
          congrArg (c :: ·) ht, hw, hrest, hwords⟩
    · rw [if_neg hc]
      rw [Bool.not_eq_true] at hc
      by_cases hends : endsWord t = true
      · rw [if_pos hends]
        exact .inr ⟨[], [c], t, by simp, rfl, ⟨by simp, List.forall_mem_singleton.2 hc⟩, hends, rfl⟩
      · rw [if_neg hends]
        cases t with
        | nil => exact absurd rfl hends
        | cons d t =>
          have hd : isBlank d = false := by simpa [endsWord] using hends
          obtain ⟨ht, -⟩ | ⟨blanks, w, rest, hblanks, ht, ⟨-, hw⟩, hrest, hwords⟩ := ih
          · exact absurd (ht d (List.mem_cons_self ..)) (by simp [hd])
          · -- the word of the rest begins at once, so it goes on from this character
            cases blanks with
            | nil =>
              refine .inr ⟨[], c :: w, rest, by simp, congrArg (c :: ·) ht,
                ⟨by simp, List.forall_mem_cons.2 ⟨hc, hw⟩⟩, hrest, ?_⟩
              rw [hwords]
              rfl
            | cons b blanks =>
              obtain ⟨rfl, -⟩ := List.cons.inj ht
              exact absurd (hblanks d (List.mem_cons_self ..)) (by simp [hd])

/-- **The first word of a text**, what comes before it and what after it. -/
theorem exists_of_words_eq_cons {t w : Text} {ws : List Text} (h : words t = w :: ws) :
    ∃ blanks rest, (∀ c ∈ blanks, isBlank c = true) ∧ t = blanks ++ (w ++ rest) ∧ IsRun w
      ∧ endsWord rest = true ∧ words rest = ws := by
  obtain ⟨-, hwords⟩ | ⟨blanks, w', rest, hblanks, ht, hw, hrest, hwords⟩ := t.words_cases
  · exact absurd (h.symm.trans hwords) (by simp)
  · obtain ⟨rfl, rfl⟩ := List.cons.inj (h.symm.trans hwords)
    exact ⟨blanks, rest, hblanks, ht, hw, hrest, rfl⟩

/-- A text without words is blank. -/
theorem isBlank_of_words_eq_nil {t : Text} (h : words t = []) : ∀ c ∈ t, isBlank c = true := by
  obtain ⟨ht, -⟩ | ⟨-, _, _, -, -, -, -, hwords⟩ := t.words_cases
  · exact ht
  · exact absurd (h.symm.trans hwords) (by simp)

/-- Every word of a text is a run. -/
theorem isRun_of_mem_words {t w : Text} (h : w ∈ words t) : IsRun w := by
  induction hwords : words t generalizing t with
  | nil => exact absurd (hwords ▸ h) (by simp)
  | cons w' ws ih =>
    obtain ⟨-, rest, -, -, hw', -, hrest⟩ := exists_of_words_eq_cons hwords
    rw [hwords] at h
    obtain rfl | hmem := List.mem_cons.1 h
    · exact hw'
    · exact ih (hrest ▸ hmem) hrest

/-! ## What stands at a word and after it -/

/-- The text from the word with a given number on, counted from zero. -/
def fromWord : Nat → Text → Text
  | 0, t => t.dropWhile isBlank
  | n + 1, t => fromWord n ((t.dropWhile isBlank).dropWhile fun c => !isBlank c)

/-- Dropping characters stops at the first one that is not dropped. -/
theorem dropWhile_append_eq {p : Char → Bool} {s rest : Text} (hs : ∀ c ∈ s, p c = true)
    (hrest : ∀ c, rest.head? = some c → p c = false) : (s ++ rest).dropWhile p = rest := by
  rw [List.dropWhile_append_of_pos hs]
  cases rest with
  | nil => rfl
  | cons c rest => exact List.dropWhile_cons_of_neg (Bool.eq_false_iff.1 (hrest c rfl))

theorem dropWhile_blanks_append {blanks w : Text} (rest : Text)
    (hblanks : ∀ c ∈ blanks, isBlank c = true) (hw : IsRun w) :
    (blanks ++ (w ++ rest)).dropWhile isBlank = w ++ rest := by
  refine dropWhile_append_eq hblanks fun c hc => ?_
  cases w with
  | nil => exact absurd rfl hw.1
  | cons d w =>
    obtain rfl : d = c := Option.some.inj hc
    exact hw.2 d (List.mem_cons_self ..)

theorem dropWhile_run_append {w rest : Text} (hw : IsRun w) (hrest : endsWord rest = true) :
    (w ++ rest).dropWhile (fun c => !isBlank c) = rest := by
  refine dropWhile_append_eq (fun c hc => by rw [hw.2 c hc]; rfl) fun c hc => ?_
  cases rest with
  | nil => exact nomatch hc
  | cons d rest =>
    obtain rfl : d = c := Option.some.inj hc
    rw [show isBlank d = true from hrest]
    rfl

/-- **A text begins with one run at most**, whatever blanks are in front of
it. -/
theorem eq_of_run_append {blanks w w' rest rest' : Text} (hblanks : ∀ c ∈ blanks, isBlank c = true)
    (hw : IsRun w) (hrest : endsWord rest = true) (hw' : IsRun w') (hrest' : endsWord rest' = true)
    (h : blanks ++ (w ++ rest) = w' ++ rest') : w = w' ∧ rest = rest' := by
  have hstart : w ++ rest = w' ++ rest' :=
    calc w ++ rest = (blanks ++ (w ++ rest)).dropWhile isBlank :=
          (dropWhile_blanks_append rest hblanks hw).symm
      _ = ([] ++ (w' ++ rest')).dropWhile isBlank := by rw [h, List.nil_append]
      _ = w' ++ rest' := dropWhile_blanks_append rest' (by simp) hw'
  have hafter : rest = rest' := by
    rw [← dropWhile_run_append hw hrest, hstart, dropWhile_run_append hw' hrest']
  rw [hafter] at hstart
  exact ⟨List.append_cancel_right hstart, hafter⟩

/-- **From a word on a text holds the word and then the later words.** -/
theorem exists_fromWord {t w : Text} {i : Nat} (h : (words t)[i]? = some w) :
    ∃ rest, fromWord i t = w ++ rest ∧ endsWord rest = true
      ∧ words rest = (words t).drop (i + 1) := by
  induction i generalizing t with
  | zero =>
    cases hwords : words t with
    | nil => exact absurd (hwords ▸ h) (by simp)
    | cons w' ws =>
      obtain rfl : w' = w := by simpa [hwords] using h
      obtain ⟨blanks, rest, hblanks, rfl, hw, hends, hrest⟩ := exists_of_words_eq_cons hwords
      exact ⟨rest, dropWhile_blanks_append rest hblanks hw, hends, hrest⟩
  | succ i ih =>
    cases hwords : words t with
    | nil => exact absurd (hwords ▸ h) (by simp)
    | cons w' ws =>
      obtain ⟨blanks, rest, hblanks, rfl, hw, hends, hrest⟩ := exists_of_words_eq_cons hwords
      rw [hwords, List.getElem?_cons_succ, ← hrest] at h
      obtain ⟨rest', hfrom, hends', hrest'⟩ := ih h
      refine ⟨rest', ?_, hends', ?_⟩
      · rw [fromWord, dropWhile_blanks_append rest hblanks hw, dropWhile_run_append hw hends, hfrom]
      · rw [hrest', hrest, List.drop_succ_cons]

/-! ## Closing quotes, word by word -/

theorem endsQuote_of_endsWord {t : Text} (h : endsWord t = true) : endsQuote t = true := by
  cases t with
  | nil => rfl
  | cons c t =>
    show (isBlank c || c == ')') = true
    rw [show isBlank c = true from h]
    rfl

/-- Blanks in front of a text add no closing quote. -/
theorem holdsClosing_blanks_append {blanks t : Text} (h : ∀ c ∈ blanks, isBlank c = true) :
    HoldsClosing (blanks ++ t) ↔ HoldsClosing t := by
  induction blanks with
  | nil => rfl
  | cons c blanks ih =>
    obtain ⟨hc, hblanks⟩ := List.forall_mem_cons.1 h
    have hquote : c ≠ quoteMark := by
      rintro rfl
      exact absurd (isBlank_quoteMark.symm.trans hc) (by simp)
    rw [List.cons_append, holdsClosing_cons_of_ne hquote, ih hblanks]

/-- A blank text holds no closing quote. -/
theorem not_holdsClosing_of_isBlank {t : Text} (h : ∀ c ∈ t, isBlank c = true) :
    ¬ HoldsClosing t := by
  rw [← List.append_nil t, holdsClosing_blanks_append h]
  exact not_holdsClosing_nil

/-- **A text holds a closing quote exactly if one of its words does.** -/
theorem holdsClosing_iff_words {t : Text} : HoldsClosing t ↔ ∃ w ∈ words t, HoldsClosing w := by
  induction hwords : words t generalizing t with
  | nil =>
    exact iff_of_false (not_holdsClosing_of_isBlank (isBlank_of_words_eq_nil hwords)) (by simp)
  | cons w ws ih =>
    obtain ⟨blanks, rest, hblanks, rfl, -, hends, hrest⟩ := exists_of_words_eq_cons hwords
    rw [holdsClosing_blanks_append hblanks, holdsClosing_append (endsQuote_of_endsWord hends),
      ih hrest]
    simp only [List.mem_cons, exists_eq_or_imp]

/-- **A word of a text is closed from behind**: it begins with a quote and is
no quoted literal by itself, but something in the text after the quote closes
it. -/
def QuoteClosedLater (t : Text) (i : Nat) : Prop :=
  ∃ w, (words t)[i]? = some w ∧ w.head? = some quoteMark ∧ Token.ofText w ≠ [.quoted w]
    ∧ HoldsClosing (fromWord i t).tail

instance (t : Text) (i : Nat) : Decidable (QuoteClosedLater t i) :=
  match h : (words t)[i]? with
  | none => isFalse fun ⟨_, hw, _⟩ => nomatch h.symm.trans hw
  | some w =>
    decidable_of_iff (w.head? = some quoteMark ∧ Token.ofText w ≠ [.quoted w]
      ∧ HoldsClosing (fromWord i t).tail)
      ⟨fun hw => ⟨w, h, hw⟩, fun ⟨_, hw', hw⟩ => Option.some.inj (h.symm.trans hw') ▸ hw⟩

end Text

namespace Token

open Text

/-! ## Words that are tokens -/

/-- A text whose words are the texts of some tokens is laid out from them. -/
theorem laid_of_words {tokens : List Token} {t : Text} (h : t.words = tokens.map Token.text) :
    Laid tokens t := by
  induction tokens generalizing t with
  | nil => exact isBlank_of_words_eq_nil h
  | cons token tokens ih =>
    obtain ⟨blanks, rest, hblanks, ht, -, -, hrest⟩ := exists_of_words_eq_cons h
    exact ⟨blanks, rest, hblanks, ht, ih hrest⟩

/-- Where a text ends or goes on with a blank, every word ends. -/
theorem stopsWord_of_endsWord {t : Text} (h : endsWord t = true) (depth : Nat) :
    StopsWord depth t := by
  cases t with
  | nil => exact stopsWord_nil depth
  | cons c t => exact Or.inl h

/-- **A token that is a word of a text is scanned as such unless it is closed
from behind.** -/
theorem Fits.before_word_iff {token : Token} {t rest : Text} {i : Nat} (h : token.Fits [])
    (hword : t.words[i]? = some token.text) (hfrom : t.fromWord i = token.text ++ rest)
    (hrest : endsWord rest = true) : token.Fits rest ↔ ¬ t.QuoteClosedLater i := by
  obtain ⟨c, u, htext, -, -⟩ := h.exists_cons
  have htail : (t.fromWord i).tail = token.text.tail ++ rest := by
    rw [hfrom, htext]
    rfl
  have hclosed : t.QuoteClosedLater i
      ↔ token.text.head? = some quoteMark ∧ token ≠ .quoted token.text
        ∧ HoldsClosing (token.text.tail ++ rest) := by
    unfold QuoteClosedLater
    rw [htail]
    constructor
    · rintro ⟨w, hw, hhead, hquoted, hcloses⟩
      obtain rfl := Option.some.inj (hword.symm.trans hw)
      rw [h.ofText_text] at hquoted
      exact ⟨hhead, fun heq => hquoted (congrArg (fun x => [x]) heq), hcloses⟩
    · rintro ⟨hhead, hquoted, hcloses⟩
      refine ⟨token.text, hword, hhead, ?_, hcloses⟩
      rw [h.ofText_text]
      exact fun heq => hquoted (List.singleton_inj.1 heq)
  rw [hclosed]
  cases token with
  | openParen => exact iff_of_true (fits_openParen rest) fun hc => absurd hc.1 (by decide)
  | closeParen => exact iff_of_true (fits_closeParen rest) fun hc => absurd hc.1 (by decide)
  | quoted q =>
    exact iff_of_true (h.quoted_before (endsQuote_of_endsWord hrest)) fun hc => hc.2.1 rfl
  | word w =>
    obtain ⟨⟨depth, hshape, -⟩, -⟩ := fits_word_iff.1 h
    rw [fits_word_iff, and_iff_right ⟨depth, hshape, stopsWord_of_endsWord hrest depth⟩]
    constructor
    · rintro hinert ⟨hhead, -, hcloses⟩
      exact hinert hhead hcloses
    · intro hclosed hhead hcloses
      exact hclosed ⟨hhead, by simp, hcloses⟩

/-- **Words that are tokens are the tokens of the text exactly if none of them
is closed from behind.** -/
theorem ofText_eq_iff_of_words {tokens : List Token} {t : Text}
    (hwords : t.words = tokens.map Token.text) (hfits : ∀ token ∈ tokens, token.Fits []) :
    ofText t = tokens ↔ ∀ i, ¬ t.QuoteClosedLater i := by
  induction tokens generalizing t with
  | nil =>
    refine iff_of_true (ofText_eq_nil_of_isBlank (isBlank_of_words_eq_nil hwords)) ?_
    rintro i ⟨w, hw, -⟩
    rw [hwords] at hw
    exact nomatch hw
  | cons token tokens ih =>
    obtain ⟨htoken, htokens⟩ := List.forall_mem_cons.1 hfits
    obtain ⟨blanks, rest, hblanks, rfl, hrun, hends, hrest⟩ := exists_of_words_eq_cons hwords
    have hfirst : token.Fits rest ↔ ¬ QuoteClosedLater (blanks ++ (token.text ++ rest)) 0 :=
      htoken.before_word_iff (by rw [hwords]; rfl) (dropWhile_blanks_append rest hblanks hrun) hends
    have hlater : ∀ i, QuoteClosedLater (blanks ++ (token.text ++ rest)) (i + 1)
        ↔ QuoteClosedLater rest i := fun i => by
      unfold QuoteClosedLater
      rw [fromWord, dropWhile_blanks_append rest hblanks hrun, dropWhile_run_append hrun hends,
        hwords, hrest, List.map_cons, List.getElem?_cons_succ]
    rw [ofText_blanks_append _ hblanks, ofText_append_eq_cons_iff htoken, ih hrest htokens, hfirst]
    constructor
    · rintro ⟨hzero, hsucc⟩ i
      cases i with
      | zero => exact hzero
      | succ i => exact (not_congr (hlater i)).2 (hsucc i)
    · intro hall
      exact ⟨hall 0, fun i => (not_congr (hlater i)).1 (hall (i + 1))⟩

/-- A token that is closed from behind is a word that begins with a quote, and
what closes it stands in one of the later words. -/
theorem exists_closing_of_quoteClosedLater {token : Token} {t : Text} {i : Nat} (h : token.Fits [])
    (hword : t.words[i]? = some token.text) (hclosed : t.QuoteClosedLater i) :
    ∃ w, token = word w ∧ w.head? = some quoteMark
      ∧ ∃ later ∈ t.words.drop (i + 1), HoldsClosing later := by
  obtain ⟨rest, hfrom, hends, hrest⟩ := exists_fromWord hword
  have hnot : ¬ token.Fits rest := fun hfits =>
    (h.before_word_iff hword hfrom hends).1 hfits hclosed
  cases token with
  | openParen => exact absurd (fits_openParen rest) hnot
  | closeParen => exact absurd (fits_closeParen rest) hnot
  | quoted q => exact absurd (h.quoted_before (endsQuote_of_endsWord hends)) hnot
  | word w =>
    have hcloses : w.head? = some quoteMark ∧ HoldsClosing rest :=
      Classical.byContradiction fun hnone =>
        hnot (h.word_before (fun depth _ => stopsWord_of_endsWord hends depth) fun hhead hrest =>
          hnone ⟨hhead, hrest⟩)
    refine ⟨w, rfl, hcloses.1, ?_⟩
    rw [← hrest, ← holdsClosing_iff_words]
    exact hcloses.2

end Token

end AttributeRules
