import AttributeRules.Proofs.Rule.Flat
import AttributeRules.Proofs.Rule.Layout

/-!
# Where the two grammars agree

The flat grammar cuts a text into words, each of which has to be a token on its
own; the nested grammar scans the same text for tokens. It reads a text of
seven words as the rule that the flat grammar has read exactly if the tokens it
finds are these words (`Rule.parse_eq_ok_iff_of_words`).

Of the words only two can fail to be found: the field and the literal of the
first condition, which may begin with a quote that something in the second one
closes. The connective begins with a letter. The second condition reads back,
so nothing of this kind happens within it, and nothing comes after it
(`Dialect.parse_nested_iff_of_parse_flat`).
-/

namespace AttributeRules

open Token

/-! ## The word between the conditions -/

namespace Text

/-- Only capitals change when they are put into lower case. -/
theorem toNat_of_toLower_ne {c : Char} (h : c.toLower ≠ c) : 65 ≤ c.toNat ∧ c.toNat ≤ 90 := by
  unfold Char.toLower at h
  split at h
  · next hupper =>
    exact ⟨UInt32.le_iff_toNat_le.1 hupper.1, UInt32.le_iff_toNat_le.1 hupper.2⟩
  · exact absurd rfl h

theorem toLower_of_isBlank {c : Char} (h : isBlank c = true) : c.toLower = c := by
  by_cases hc : c.toLower = c
  · exact hc
  · have hupper := toNat_of_toLower_ne hc
    simp [isBlank, inRanges, blankRanges] at h
    omega

/-- A character that is plain in lower case is plain itself. -/
theorem isPlain_of_toLower {c : Char} (h : IsPlain c.toLower) : IsPlain c := by
  obtain ⟨hblank, hopen, hclose, hquote⟩ := h
  refine ⟨?_, ?_, ?_, ?_⟩
  · rw [Bool.eq_false_iff]
    intro hc
    rw [toLower_of_isBlank hc, hc] at hblank
    exact Bool.noConfusion hblank
  · rintro rfl
    exact hopen rfl
  · rintro rfl
    exact hclose rfl
  · rintro rfl
    exact hquote rfl

end Text

/-- The letters of a connective are plain, whatever their case. -/
theorem Connective.isPlain_of_sameIgnoringCase {op : Connective} {keyword : Text}
    (h : Text.sameIgnoringCase keyword op.render = true) : ∀ c ∈ keyword, Text.IsPlain c := by
  intro c hc
  have hmem : c.toLower ∈ op.render.map Char.toLower := by
    rw [← show keyword.map Char.toLower = op.render.map Char.toLower from eq_of_beq h]
    exact List.mem_map_of_mem hc
  have hplain : (op.render.map Char.toLower).all (fun d => Text.IsPlain d) = true := by
    cases op <;> decide
  exact Text.isPlain_of_toLower (of_decide_eq_true (List.all_eq_true.1 hplain _ hmem))

/-- A connective is a token, whatever the case of its letters. -/
theorem Connective.fits_of_sameIgnoringCase {op : Connective} {keyword : Text}
    (h : Text.sameIgnoringCase keyword op.render = true) : (word keyword).Fits [] := by
  refine fits_of_isPlain ?_ (isPlain_of_sameIgnoringCase h)
  rintro rfl
  cases op <;> exact absurd h (by decide)

namespace Rule

/-! ## Flat rules under the nested grammar -/

/-- The words of a flat rule whose conditions read back are tokens. -/
theorem fits_of_mem_flatWords {left right : Condition} {keyword : Text} {op : Connective}
    (hleft : left.ReadsBack) (hright : right.ReadsBack)
    (hop : Text.sameIgnoringCase keyword op.render = true) :
    ∀ token ∈ flatWords left keyword right, token.Fits [] := by
  have hcondition : ∀ {c : Condition}, c.ReadsBack → ∀ token ∈ c.tokens, token.Fits [] :=
    fun hc => fits_of_mem_tokens (storable_operand_iff.2 hc)
  refine List.forall_mem_append.2 ⟨hcondition hleft, ?_⟩
  exact List.forall_mem_cons.2 ⟨Connective.fits_of_sameIgnoringCase hop, hcondition hright⟩

/-- **A text of the words of a flat rule is read as that rule by the nested
grammar exactly if it is scanned as these words.** -/
theorem parse_eq_ok_iff_of_words {t : Text} {left right : Condition} {keyword : Text}
    {op : Connective} (hwords : t.words = (flatWords left keyword right).map Token.text)
    (hleft : left.ReadsBack) (hright : right.ReadsBack)
    (hop : Text.sameIgnoringCase keyword op.render = true) :
    Rule.parse t = .ok (branch op (operand left) (operand right))
      ↔ Token.ofText t = flatWords left keyword right :=
  parse_eq_ok_iff_of_laid (laid_of_words hwords) (fits_of_mem_flatWords hleft hright hop)
    (derives_branch hop (derives_encloseTokens (storable_operand_iff.2 hleft))
      (derives_encloseTokens (storable_operand_iff.2 hright)))

/-- **No word of the second condition and no connective is closed from behind**,
so only the field and the literal of the first condition can be. -/
theorem quoteClosedLater_iff_of_flatWords {t : Text} {left right : Condition} {keyword : Text}
    {op : Connective} (hwords : t.words = (flatWords left keyword right).map Token.text)
    (hleft : left.ReadsBack) (hright : right.ReadsBack)
    (hop : Text.sameIgnoringCase keyword op.render = true) :
    (∀ i, ¬ t.QuoteClosedLater i) ↔ ¬ t.QuoteClosedLater 0 ∧ ¬ t.QuoteClosedLater 2 := by
  refine ⟨fun h => ⟨h 0, h 2⟩, ?_⟩
  rintro ⟨hzero, htwo⟩ i hclosed
  -- the word that is closed, and a later one that closes it
  have hword : ∃ token, (flatWords left keyword right)[i]? = some token
      ∧ t.words[i]? = some token.text := by
    obtain ⟨w, hw, -⟩ := hclosed
    rw [hwords, List.getElem?_map] at hw
    obtain ⟨token, htoken, rfl⟩ := Option.map_eq_some_iff.1 hw
    exact ⟨token, htoken, by rw [hwords, List.getElem?_map, htoken]; rfl⟩
  obtain ⟨token, htoken, hword⟩ := hword
  have hfits := fits_of_mem_flatWords hleft hright hop token (List.mem_of_getElem? htoken)
  obtain ⟨w, rfl, hhead, later, hlater, hcloses⟩ :=
    exists_closing_of_quoteClosedLater hfits hword hclosed
  rw [hwords] at hlater
  have hplace : i < 7 := (List.getElem?_eq_some_iff.1 htoken).1
  obtain rfl | rfl | rfl | rfl | rfl | rfl | rfl :
      i = 0 ∨ i = 1 ∨ i = 2 ∨ i = 3 ∨ i = 4 ∨ i = 5 ∨ i = 6 := by omega
  · exact hzero hclosed
  · obtain rfl := Token.word.inj (Option.some.inj htoken)
    exact Comparator.head?_render_ne _ hhead
  · exact htwo hclosed
  · obtain rfl := Token.word.inj (Option.some.inj htoken)
    exact (Connective.isPlain_of_sameIgnoringCase hop _ (List.mem_of_mem_head? hhead)).2.2.2 rfl
  · -- the field of the second condition: its sign closes nothing, its literal not the field
    obtain rfl := Token.word.inj (Option.some.inj htoken)
    have hlater : later = right.comparator.render ∨ later = right.literal.token.text := by
      simpa [flatWords, Condition.tokens] using hlater
    obtain rfl | rfl := hlater
    · exact Comparator.not_holdsClosing_render _ hcloses
    · rw [Literal.text_token] at hcloses
      exact (Condition.readsBack_iff.1 hright).2.2 hhead hcloses
  · obtain rfl := Token.word.inj (Option.some.inj htoken)
    exact Comparator.head?_render_ne _ hhead
  · exact absurd hlater (List.not_mem_nil)

end Rule

/-- **Where the two grammars agree.** A text of seven words that is a rule of
the flat grammar is the same rule under the nested one exactly if neither the
field nor the literal of its first condition is closed from behind. Where one
of them is, the text is no rule of the nested grammar or another one. -/
theorem Dialect.parse_nested_iff_of_parse_flat {policy : TrailingPolicy} {t : Text} {r : Rule}
    (hlength : t.words.length = 7) (hflat : Dialect.parse ⟨.flat, policy⟩ t = .ok r) :
    (Dialect.parse {} t = .ok r ↔ ¬ t.QuoteClosedLater 0 ∧ ¬ t.QuoteClosedLater 2)
      ∧ (t.QuoteClosedLater 0 ∨ t.QuoteClosedLater 2 →
          (∃ e, Dialect.parse {} t = .error e) ∨ ∃ r', Dialect.parse {} t = .ok r' ∧ r' ≠ r) := by
  obtain ⟨left, op, keyword, right, trailing, hwords, -, hleft, hright, hop, rfl⟩ :=
    (Rule.ofWords_eq_ok_iff fun _ => Text.isRun_of_mem_words).1 hflat
  have hnone : trailing = [] := by
    rw [hwords] at hlength
    simpa [Rule.flatWords, Condition.tokens] using hlength
  rw [hnone, List.append_nil] at hwords
  have hagree : Dialect.parse {} t = .ok (.branch op (.operand left) (.operand right))
      ↔ ¬ t.QuoteClosedLater 0 ∧ ¬ t.QuoteClosedLater 2 :=
    calc Rule.parse t = .ok (.branch op (.operand left) (.operand right))
        ↔ ofText t = Rule.flatWords left keyword right :=
          Rule.parse_eq_ok_iff_of_words hwords hleft hright hop
      _ ↔ ∀ i, ¬ t.QuoteClosedLater i :=
          ofText_eq_iff_of_words hwords (Rule.fits_of_mem_flatWords hleft hright hop)
      _ ↔ ¬ t.QuoteClosedLater 0 ∧ ¬ t.QuoteClosedLater 2 :=
          Rule.quoteClosedLater_iff_of_flatWords hwords hleft hright hop
  refine ⟨hagree, fun hclosed => ?_⟩
  cases hparse : Dialect.parse {} t with
  | error e => exact .inl ⟨e, rfl⟩
  | ok r' =>
    refine .inr ⟨r', rfl, ?_⟩
    rintro rfl
    exact hclosed.elim (hagree.1 hparse).1 (hagree.1 hparse).2

/-- Quotes that nothing closes change nothing. One in front of the first literal
that the last word of the rule closes takes all up to there into that literal. -/
theorem Dialect.parse_nested_quotes_open_closed :
    let opened := Rule.and (.operand ⟨"'f(x".toList, .greater, .bare "'y".toList⟩)
      (.operand ⟨"'b".toList, .less, .bare "it's".toList⟩)
    let closed := Rule.and (.operand ⟨"name".toList, .equal, .bare "'x".toList⟩)
      (.operand ⟨"b".toList, .equal, .bare "y'".toList⟩)
    let merged := Rule.operand ⟨"name".toList, .equal, .quoted "x AND b = y".toList⟩
    (Dialect.parse ⟨.flat, .reject⟩ "'f(x > 'y AND 'b < it's".toList = .ok opened
        ∧ Dialect.parse {} "'f(x > 'y AND 'b < it's".toList = .ok opened)
      ∧ Dialect.parse ⟨.flat, .ignore⟩ "name = 'x AND b = y'".toList = .ok closed
      ∧ Dialect.parse {} "name = 'x AND b = y'".toList ≠ .ok closed
      ∧ Dialect.parse {} "name = 'x AND b = y'".toList = .ok merged := by
  intro opened closed merged
  have hopened : Dialect.parse ⟨.flat, .reject⟩ "'f(x > 'y AND 'b < it's".toList = .ok opened :=
    toOption_eq_some_iff.1 (by decide +kernel)
  have hclosed : Dialect.parse ⟨.flat, .ignore⟩ "name = 'x AND b = y'".toList = .ok closed :=
    toOption_eq_some_iff.1 (by decide +kernel)
  refine ⟨⟨hopened, ?_⟩, hclosed, ?_, toOption_eq_some_iff.1 (by decide +kernel)⟩
  · exact (Dialect.parse_nested_iff_of_parse_flat (by decide +kernel) hopened).1.2
      (by decide +kernel)
  · rw [Ne, (Dialect.parse_nested_iff_of_parse_flat (by decide +kernel) hclosed).1]
    decide +kernel

end AttributeRules
