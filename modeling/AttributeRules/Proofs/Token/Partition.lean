import AttributeRules.Proofs.Token.Alone
import AttributeRules.Proofs.Token.Spacing

/-!
# The partition of a text into tokens

The scan drops the blanks between tokens and drops nothing else: a text is
blanks, the characters of its first token, blanks, the characters of the second,
and so on up to the blanks at its end. A text can be cut up like this in many
ways. What singles out the way of the scan is where its tokens end, which this
module says by the characters alone and not by what the scan counts
(`Token.Delimited`).

The rules are about a token and all of the text behind it, for whether a quote
begins a literal is settled by the first closing quote, however far away it is.
A partition is therefore a list of pieces of which each is delimited in front of
all the later ones (`Text.PartitionedAs`). The tokens of a text are those of such
a partition, and no other list of tokens is (`Token.ofText_eq_iff_partitionedAs`).

Once a token has been cut out, what stood behind it is gone. The token remains
the same nevertheless: it is scanned from its own characters again, and these
tell of which kind it is (`Token.ofText_alone_and_isQuoted`).
-/

namespace AttributeRules

namespace Text

/-! ## Where a word ends -/

/-- A closing parenthesis at the end of a text closes one of the text exactly if
the text leaves one open. -/
theorem closesOpened_concat_iff {t : Text} (h : ClosesOpened 0 t) :
    ClosesOpened 0 (t ++ [')']) ↔ LeavesOpen t := by
  unfold LeavesOpen
  constructor
  · intro hconcat
    simpa using hconcat t [] rfl
  · intro hopen before after hsplit
    -- the parenthesis is the one at the end or one of the text
    obtain rfl | ⟨after, c, rfl⟩ := List.eq_nil_or_concat after
    · obtain rfl : t = before := List.append_cancel_right hsplit
      simpa using hopen
    · rw [List.concat_eq_append, ← List.cons_append, ← List.append_assoc] at hsplit
      exact h before after (List.append_inj_left' hsplit rfl)

/-- **What makes a text a word in front of another text.** -/
structure IsWordBefore (w rest : Text) : Prop where
  /-- There is a first character. -/
  ne_nil : w ≠ []
  /-- There is no blank in the word. -/
  unblank : ∀ c ∈ w, isBlank c = false
  /-- No parenthesis begins the word. -/
  head?_ne : w.head? ≠ some '(' ∧ w.head? ≠ some ')'
  /-- Every closing parenthesis of the word closes one that the word has opened
  before. -/
  closesOpened : ClosesOpened 0 w
  /-- Behind the word there is a blank, the end, or a closing parenthesis that
  would close none of the word. -/
  ends : endsWord rest = true ∨ (rest.head? = some ')' ∧ ¬ ClosesOpened 0 (w ++ [')']))
  /-- A quote that begins the word is closed neither in the word nor anywhere
  behind it. -/
  inert : QuoteInert w rest

/-- A word stops where it meets a blank, the end, or a closing parenthesis that
would close none of it. -/
theorem IsWord.stopsWord_iff_ends {w : Text} {depth : Nat} (h : IsWord w depth) {rest : Text} :
    StopsWord depth rest
      ↔ endsWord rest = true ∨ (rest.head? = some ')' ∧ ¬ ClosesOpened 0 (w ++ [')'])) := by
  obtain ⟨-, hcloses⟩ := exists_wordDepth?_iff.1 ⟨depth, h.2.2⟩
  rw [closesOpened_concat_iff hcloses, h.leavesOpen_iff, Classical.not_not]
  cases rest with
  | nil => exact iff_of_true trivial (.inl rfl)
  | cons c t => simp [StopsWord, endsWord]

/-! ## Where a quoted literal ends -/

/-- A quote in front of another closes nothing. -/
theorem endsQuote_quoteMark (t : Text) : endsQuote (quoteMark :: t) = false := by
  show (isBlank quoteMark || quoteMark == ')') = false
  decide

/-- Whether the quote that stands between two texts is the first one to close a
literal: it closes one, and each quote that does comes after all of the first
text. -/
def ClosesFirst (content rest : Text) : Prop :=
  endsQuote rest = true
    ∧ ∀ before after, content ++ quoteMark :: rest = before ++ quoteMark :: after →
        endsQuote after = true → content <+: before

/-- **The quote behind a text is the first to close a literal exactly if it
closes one and none in the text closes early.** A quote at the very end of the
text is no exception, for it is followed by another quote. -/
theorem closesFirst_iff {content rest : Text} :
    ClosesFirst content rest ↔ endsQuote rest = true ∧ ¬ HoldsEarlyClosing content := by
  refine and_congr_right fun _ => ⟨?_, ?_⟩
  · rintro hfirst ⟨before, c, after, rfl, hc⟩
    have hends : endsQuote (c :: after ++ quoteMark :: rest) = true := by
      simpa [endsQuote] using hc
    obtain ⟨between, hbetween⟩ :=
      hfirst before (c :: after ++ quoteMark :: rest) (by simp) hends
    -- the text would be part of what comes before one of its own characters
    have hlength := congrArg List.length hbetween
    simp only [List.length_append, List.length_cons] at hlength
    omega
  · intro hearly before after hsplit hends
    obtain ⟨between, rfl, -⟩ | ⟨between, rfl, hafter⟩ := List.append_eq_append_iff.1 hsplit
    · exact List.prefix_append content between
    · cases between with
      | nil => simp
      | cons b between =>
        obtain ⟨rfl, rfl⟩ := List.cons.inj hafter
        cases between with
        | nil => exact absurd (hends.symm.trans (endsQuote_quoteMark rest)) (by decide)
        | cons c between =>
          exact absurd ⟨before, c, between, rfl, by simpa [endsQuote] using hends⟩ hearly

end Text

namespace Token

open Text

/-! ## The rules for each kind of token -/

/-- **Whether a token ends by the rules where a text follows it.** A parenthesis
does everywhere. -/
def Delimited : Token → Text → Prop
  | word w, rest => IsWordBefore w rest
  | quoted q, rest => ∃ content, q = inQuotes content ∧ ClosesFirst content rest
  | openParen, _ => True
  | closeParen, _ => True

theorem fits_word_iff_isWordBefore {w rest : Text} :
    (word w).Fits rest ↔ IsWordBefore w rest := by
  rw [fits_word_iff]
  constructor
  · rintro ⟨⟨depth, hword, hstops⟩, hinert⟩
    obtain ⟨hblank, hcloses⟩ := exists_wordDepth?_iff.1 ⟨depth, hword.2.2⟩
    have hclose : w.head? ≠ some ')' := fun hhead => by
      obtain ⟨u, rfl⟩ := List.head?_eq_some_iff.1 hhead
      exact Nat.lt_irrefl _ (hcloses [] u rfl)
    exact ⟨hword.1, hblank, ⟨hword.2.1, hclose⟩, hcloses, hword.stopsWord_iff_ends.1 hstops, hinert⟩
  · rintro ⟨hne, hblank, ⟨hopen, -⟩, hcloses, hends, hinert⟩
    obtain ⟨depth, hdepth⟩ := exists_wordDepth?_iff.2 ⟨hblank, hcloses⟩
    have hword : IsWord w depth := ⟨hne, hopen, hdepth⟩
    exact ⟨⟨depth, hword, hword.stopsWord_iff_ends.2 hends⟩, hinert⟩

theorem fits_inQuotes_iff_closesFirst {content rest : Text} :
    (quoted (inQuotes content)).Fits rest ↔ ClosesFirst content rest := by
  rw [fits_quoted_iff, closesFirst_iff, ← endsAtClosing_concat_iff]
  exact ⟨fun ⟨_, hcloses, hrest⟩ => ⟨hrest, hcloses⟩, fun ⟨hrest, hcloses⟩ => ⟨rfl, hcloses, hrest⟩⟩

/-- **The scan takes a token from where it stands exactly if the token ends there
by the rules.** -/
theorem fits_iff_delimited {token : Token} {rest : Text} :
    token.Fits rest ↔ token.Delimited rest := by
  cases token with
  | word w => exact fits_word_iff_isWordBefore
  | quoted q =>
    constructor
    · intro h
      obtain ⟨content, rfl, -⟩ := h.ofToken_quoted
      exact ⟨content, rfl, fits_inQuotes_iff_closesFirst.1 h⟩
    · rintro ⟨content, rfl, hcloses⟩
      exact fits_inQuotes_iff_closesFirst.2 hcloses
  | openParen => exact iff_of_true (fits_openParen rest) trivial
  | closeParen => exact iff_of_true (fits_closeParen rest) trivial

end Token

/-! ## Partitions -/

/-- A token of a text together with the blanks behind it. -/
structure Piece where
  /-- The token. -/
  token : Token
  /-- What separates the token from the next one or from the end; it may be
  empty. -/
  blanks : Text

/-- The characters of a piece. -/
def Piece.text (p : Piece) : Text := p.token.text ++ p.blanks

/-- **What makes blanks and pieces a partition of a text.** -/
structure Text.PartitionedAs (t front : Text) (pieces : List Piece) : Prop where
  /-- The blanks in front and the pieces make up the text. -/
  eq_append : t = front ++ pieces.flatMap Piece.text
  /-- There are only blanks in front. -/
  isBlank_front : ∀ c ∈ front, isBlank c = true
  /-- There are only blanks behind each token. -/
  isBlank_blanks : ∀ p ∈ pieces, ∀ c ∈ p.blanks, isBlank c = true
  /-- Each token has characters. -/
  text_ne_nil : ∀ p ∈ pieces, p.token.text ≠ []
  /-- Each token ends by the rules, in front of its blanks and the later
  pieces. -/
  delimited : ∀ p later, p :: later <:+ pieces →
    p.token.Delimited (p.blanks ++ later.flatMap Piece.text)

namespace Text

theorem partitionedAs_nil_iff {t front : Text} :
    t.PartitionedAs front [] ↔ t = front ∧ ∀ c ∈ front, isBlank c = true := by
  constructor
  · rintro ⟨ht, hfront, -, -, -⟩
    exact ⟨ht.trans (List.append_nil front), hfront⟩
  · rintro ⟨rfl, hfront⟩
    exact ⟨(List.append_nil t).symm, hfront, by simp, by simp, by simp⟩

/-- **A partition, one piece at a time**: blanks, a token that fits in front of
the rest, and a partition of the rest that begins with the blanks of the
piece. -/
theorem partitionedAs_cons_iff {t front : Text} {p : Piece} {later : List Piece} :
    t.PartitionedAs front (p :: later)
      ↔ ∃ rest, (∀ c ∈ front, isBlank c = true) ∧ t = front ++ (p.token.text ++ rest)
          ∧ p.token.Fits rest ∧ rest.PartitionedAs p.blanks later := by
  constructor
  · rintro ⟨ht, hfront, hblanks, hne, hdelimited⟩
    obtain ⟨hblank, hblanks⟩ := List.forall_mem_cons.1 hblanks
    refine ⟨p.blanks ++ later.flatMap Piece.text, hfront, ?_, ?_, rfl, hblank, hblanks, ?_, ?_⟩
    · rw [ht, List.flatMap_cons, Piece.text, List.append_assoc]
    · exact Token.fits_iff_delimited.2 (hdelimited p later (List.suffix_refl _))
    · exact (List.forall_mem_cons.1 hne).2
    · exact fun p' later' h => hdelimited p' later' (h.trans (List.suffix_cons p later))
  · rintro ⟨rest, hfront, rfl, hfits, rfl, hblank, hblanks, hne, hdelimited⟩
    have htext : p.token.text ≠ [] := by
      obtain ⟨c, u, htext, -⟩ := hfits.exists_cons
      rw [htext]
      exact List.cons_ne_nil c u
    refine ⟨?_, hfront, List.forall_mem_cons.2 ⟨hblank, hblanks⟩,
      List.forall_mem_cons.2 ⟨htext, hne⟩, fun p' later' h => ?_⟩
    · rw [List.flatMap_cons, Piece.text, List.append_assoc]
    · obtain heq | hsuffix := List.suffix_cons_iff.1 h
      · obtain ⟨rfl, rfl⟩ := List.cons.inj heq
        exact Token.fits_iff_delimited.1 hfits
      · exact hdelimited p' later' hsuffix

end Text

namespace Token

open Text

/-- A text has no tokens exactly if it is blank. -/
theorem ofText_eq_nil_iff {t : Text} : ofText t = [] ↔ ∀ c ∈ t, isBlank c = true :=
  ⟨isBlank_of_ofText_eq_nil, ofText_eq_nil_of_isBlank⟩

/-- **The scan partitions a text, and the rules admit no other tokens.** The
characters of the tokens and the blanks around them are the text, in order; each
token has characters and ends where the rules say, given all of the text behind
it; and the tokens of every such partition are those of the scan. -/
theorem ofText_eq_iff_partitionedAs {t : Text} {tokens : List Token} :
    ofText t = tokens
      ↔ ∃ front pieces, t.PartitionedAs front pieces ∧ pieces.map Piece.token = tokens := by
  induction tokens generalizing t with
  | nil =>
    simp only [List.map_eq_nil_iff, exists_eq_right, partitionedAs_nil_iff, ofText_eq_nil_iff]
    exact ⟨fun h => ⟨t, rfl, h⟩, fun ⟨front, ht, hfront⟩ => ht ▸ hfront⟩
  | cons token tokens ih =>
    rw [ofText_eq_cons_iff]
    constructor
    · rintro ⟨front, rest, hfront, ht, hfits, hrest⟩
      obtain ⟨blanks, pieces, hpieces, htokens⟩ := ih.1 hrest
      exact ⟨front, ⟨token, blanks⟩ :: pieces,
        partitionedAs_cons_iff.2 ⟨rest, hfront, ht, hfits, hpieces⟩,
        congrArg (token :: ·) htokens⟩
    · rintro ⟨front, pieces, hpieces, htokens⟩
      obtain ⟨p, later, rfl, rfl, hlater⟩ := List.map_eq_cons_iff.1 htokens
      obtain ⟨rest, hfront, ht, hfits, hrest⟩ := partitionedAs_cons_iff.1 hpieces
      exact ⟨front, rest, hfront, ht, hfits, ih.2 ⟨p.blanks, later, hrest, hlater⟩⟩

example : ofText "('a)b' 'c d)".toList
    = [openParen, quoted "'a)b'".toList, word "'c".toList, word "d".toList, closeParen] := by
  decide +kernel

/-! ## Tokens cut out of their text -/

/-- **A token is the same token on its own, and its characters tell its kind.** A
word of a text is scanned from its own characters as that word, and denotes no
quoted literal; a quoted token is scanned from its own characters as that token,
and denotes the text between its first and its last character, which are
quotes. -/
theorem ofText_alone_and_isQuoted (t : Text) :
    (∀ w, word w ∈ ofText t → ofText w = [word w] ∧ (Literal.ofToken w).isQuoted = false)
      ∧ ∀ q, quoted q ∈ ofText t → ofText q = [quoted q] ∧ (Literal.ofToken q).isQuoted = true
          ∧ (Literal.ofToken q).text = q.tail.dropLast
          ∧ q = inQuotes (Literal.ofToken q).text := by
  constructor
  · intro w hmem
    have hfits := fits_of_mem_ofText hmem
    refine ⟨hfits.ofText_text, ?_⟩
    rw [hfits.ofToken_word]
    rfl
  · intro q hmem
    have hfits := fits_of_mem_ofText hmem
    obtain ⟨content, hq, hcontent⟩ := hfits.ofToken_quoted
    rw [hcontent]
    refine ⟨hfits.ofText_text, rfl, ?_, hq⟩
    rw [hq, inQuotes, List.cons_append, List.tail_cons, List.dropLast_concat, Literal.text_quoted]

/-- A lone quote, which is a word although it begins and ends with a quote, and a
quoted token with a closing parenthesis in it. -/
theorem ofText_alone_lone_quote :
    let source := "f('x') = ('a)b' ')".toList
    let lone := "'".toList
    let literal := "'a)b'".toList
    (word lone ∈ ofText source ∧ quoted literal ∈ ofText source)
      ∧ (ofText lone = [word lone] ∧ (Literal.ofToken lone).isQuoted = false)
      ∧ ofText literal = [quoted literal] ∧ (Literal.ofToken literal).isQuoted = true
      ∧ (Literal.ofToken literal).text = "a)b".toList := by
  intro source lone literal
  have hlone : word lone ∈ ofText source := by decide +kernel
  have hliteral : quoted literal ∈ ofText source := by decide +kernel
  obtain ⟨hwords, hquoteds⟩ := ofText_alone_and_isQuoted source
  obtain ⟨hscan, hquoted, htext, -⟩ := hquoteds literal hliteral
  exact ⟨⟨hlone, hliteral⟩, hwords lone hlone, hscan, hquoted, htext.trans (by decide)⟩

end Token

end AttributeRules
