import AttributeRules.Dialect
import AttributeRules.Proofs.Rule.Flat

/-!
# Flat rules and the texts of their conditions

The flat grammar looks at the words of a condition one by one and then asks
that the condition reads back. Storage knows a condition as one text, which is
scanned. Quotes and parentheses might set the two apart: the scan can cut a word
into several tokens, and it can take several words as one.

Neither happens in a text that is read as a condition. A word is cut only in
front of a closing parenthesis, and none of the three tokens of a condition is
one; words are joined only by a quoted literal, and that comes last, where there
is no further word. So three words are accepted by the flat grammar exactly if
they are read as a condition when written with single spaces between them
(`Condition.ofWords_eq_ok_iff_parse`), and the flat rules are those whose two
triples are texts of conditions (`Dialect.parse_flat_eq_ok_iff`).
-/

namespace AttributeRules

open Token

/-- Words with one space between any two. -/
def Text.unwords (words : List Text) : Text := [' '].intercalate words

/-- A run that is followed by a space is scanned as a whole if it is scanned as
a word at all and no closing parenthesis comes next. -/
theorem Token.eq_of_ofText_append_space {w x rest : Text} {token : Token} {tokens : List Token}
    (hw : Text.IsRun w) (h : ofText (w ++ ' ' :: rest) = word x :: token :: tokens)
    (htoken : token ≠ closeParen) : x = w ∧ ofText rest = token :: tokens := by
  obtain ⟨blanks, rest', hblanks, hsplit, hfits, hrest⟩ := ofText_eq_cons_iff.1 h
  have hx : Text.IsBareWord x := fits_word_iff_isBareWord.1 hfits.alone
  have hends : Text.endsWord rest' = true := by
    obtain ⟨⟨depth, -, hstops⟩, -⟩ := fits_word_iff.1 hfits
    cases rest' with
    | nil => rfl
    | cons c rest' =>
      obtain hblank | ⟨rfl, -⟩ := hstops
      · exact hblank
      · -- the parenthesis would be the next token
        rw [ofText_closeParen] at hrest
        exact absurd (List.cons.inj hrest).1.symm htoken
  obtain ⟨rfl, rfl⟩ := Text.eq_of_run_append hblanks ⟨hx.ne_nil, hx.unblank⟩ hends hw
    (Text.endsWord_space rest) hsplit.symm
  rw [ofText_space] at hrest
  exact ⟨rfl, hrest⟩

namespace Condition

/-- The words of a condition make its text. -/
theorem unwords_tokens (c : Condition) : Text.unwords (c.tokens.map Token.text) = c.render :=
  c.spaced_tokens

/-- **Three words are read as a condition, as one text, exactly if they are its
tokens and it reads back.** -/
theorem parse_unwords_eq_ok_iff {field sign literal : Text} (hfield : Text.IsRun field)
    (hsign : Text.IsRun sign) (hliteral : Text.IsRun literal) {c : Condition} :
    parse (Text.unwords [field, sign, literal]) = .ok c
      ↔ [field, sign, literal] = c.tokens.map Token.text ∧ c.ReadsBack := by
  constructor
  · intro h
    have hscan : ofText (field ++ ' ' :: (sign ++ ' ' :: literal)) = c.tokens := by
      rw [← parse_eq_ok_iff.1 h, Text.unwords]
      simp [List.intercalate]
    have hparen : c.literal.token ≠ closeParen := by
      cases c.literal <;> simp [Literal.token]
    obtain ⟨hfirst, hscan⟩ := Token.eq_of_ofText_append_space hfield hscan (by simp)
    obtain ⟨hsecond, hscan⟩ := Token.eq_of_ofText_append_space hsign hscan hparen
    obtain ⟨hthird, -⟩ := (Token.ofText_eq_singleton_iff hliteral.2).1 hscan
    refine ⟨?_, readsBack_of_parse h⟩
    rw [← hfirst, ← hsecond, hthird]
    rfl
  · rintro ⟨hwords, hreads⟩
    rw [hwords, unwords_tokens]
    exact hreads.parse_render

/-- **The flat grammar accepts the triples that are texts of conditions.** -/
theorem ofWords_eq_ok_iff_parse {field sign literal : Text} (hfield : Text.IsRun field)
    (hsign : Text.IsRun sign) (hliteral : Text.IsRun literal) {c : Condition} :
    ofWords field sign literal = .ok c
      ↔ parse (Text.unwords [field, sign, literal]) = .ok c := by
  rw [ofWords_eq_ok_iff hliteral.2, parse_unwords_eq_ok_iff hfield hsign hliteral]

end Condition

namespace Rule

/-! ## Seven words -/

/-- **Words are accepted exactly if there are seven and their triples are texts
of conditions**, with more behind them only where the policy lets these be. -/
theorem ofWords_eq_ok_iff_parse {policy : TrailingPolicy} {words : List Text}
    (hwords : ∀ w ∈ words, Text.IsRun w) {r : Rule} :
    ofWords policy words = .ok r
      ↔ flatRuleLength ≤ words.length ∧ (policy = .reject → words.length = flatRuleLength)
        ∧ ∃ keyword op left right, words[3]? = some keyword
          ∧ Text.sameIgnoringCase keyword op.render = true
          ∧ Condition.parse (Text.unwords (words.take 3)) = .ok left
          ∧ Condition.parse (Text.unwords ((words.drop 4).take 3)) = .ok right
          ∧ r = branch op (operand left) (operand right) := by
  have htriple : ∀ {field sign literal : Text}, [field, sign, literal] ⊆ words → ∀ {c},
      Condition.ofWords field sign literal = .ok c
        ↔ Condition.parse (Text.unwords [field, sign, literal]) = .ok c := fun h =>
    Condition.ofWords_eq_ok_iff_parse (hwords _ (h (by simp))) (hwords _ (h (by simp)))
      (hwords _ (h (by simp)))
  rw [ofWords_eq_ok_iff_triples]
  constructor
  · rintro ⟨field₁, sign₁, literal₁, keyword, field₂, sign₂, literal₂, trailing, rfl, htrailing,
      left, op, right, hleft, hop, hright, rfl⟩
    refine ⟨Nat.le_add_left .., fun hreject => ?_, keyword, op, left, right, rfl, hop,
      (htriple (by simp)).1 hleft, (htriple (by simp)).1 hright, rfl⟩
    rw [htrailing hreject]
    rfl
  · rintro ⟨hlength, hreject, keyword, op, left, right, hkeyword, hop, hleft, hright, rfl⟩
    match words, hlength with
    | field₁ :: sign₁ :: literal₁ :: keyword' :: field₂ :: sign₂ :: literal₂ :: trailing, _ =>
      obtain rfl : keyword' = keyword := Option.some.inj hkeyword
      have htrailing : policy = .reject → trailing = [] := fun hpolicy =>
        List.eq_nil_of_length_eq_zero (by simpa [flatRuleLength] using hreject hpolicy)
      exact ⟨_, _, _, _, _, _, _, trailing, rfl, htrailing, left, op, right,
        (htriple (by simp)).2 hleft, hop, (htriple (by simp)).2 hright, rfl⟩

/-- Words after the seventh are not looked at where they are ignored. -/
theorem ofWords_ignore_take (words : List Text) :
    ofWords .ignore (words.take flatRuleLength) = ofWords .ignore words := by
  match words with
  | [] | [_] | [_, _] | [_, _, _] | [_, _, _, _] | [_, _, _, _, _] | [_, _, _, _, _, _] => rfl
  | _ :: _ :: _ :: _ :: _ :: _ :: _ :: _ => rfl

end Rule

/-- **What the flat grammar accepts.** A text is a flat rule exactly if its
first three words and the three after the fourth, written with single spaces
between them, are texts of conditions and the fourth is a connective; there must
be seven words, and no more where that is asked for. The conditions of the rule
are then written as those words, and what comes after the seventh never matters
where it is ignored. -/
theorem Dialect.parse_flat_eq_ok_iff (policy : TrailingPolicy) (t : Text) :
    (∀ r, Dialect.parse ⟨.flat, policy⟩ t = .ok r
        ↔ flatRuleLength ≤ t.words.length ∧ (policy = .reject → t.words.length = flatRuleLength)
          ∧ ∃ keyword op left right, t.words[3]? = some keyword
            ∧ Text.sameIgnoringCase keyword op.render = true
            ∧ Condition.parse (Text.unwords (t.words.take 3)) = .ok left
            ∧ Condition.parse (Text.unwords ((t.words.drop 4).take 3)) = .ok right
            ∧ r = .branch op (.operand left) (.operand right))
      ∧ (∀ r, Dialect.parse ⟨.flat, policy⟩ t = .ok r →
          r.conditions.map Condition.render
            = [Text.unwords (t.words.take 3), Text.unwords ((t.words.drop 4).take 3)])
      ∧ ∀ s : Text, s.words.take flatRuleLength = t.words.take flatRuleLength →
          Dialect.parse ⟨.flat, .ignore⟩ s = Dialect.parse ⟨.flat, .ignore⟩ t := by
  refine ⟨fun r => Rule.ofWords_eq_ok_iff_parse fun _ => Text.isRun_of_mem_words, fun r h => ?_,
    fun s hs => ?_⟩
  · obtain ⟨left, op, keyword, right, trailing, hwords, -, -, -, -, rfl⟩ :=
      (Rule.ofWords_eq_ok_iff fun _ => Text.isRun_of_mem_words).1 h
    have hleft : t.words.take 3 = left.tokens.map Token.text := by rw [hwords]; rfl
    have hright : (t.words.drop 4).take 3 = right.tokens.map Token.text := by rw [hwords]; rfl
    rw [hleft, hright, Condition.unwords_tokens, Condition.unwords_tokens]
    rfl
  · calc Rule.ofWords .ignore s.words
        = Rule.ofWords .ignore (s.words.take flatRuleLength) := (Rule.ofWords_ignore_take _).symm
      _ = Rule.ofWords .ignore (t.words.take flatRuleLength) := by rw [hs]
      _ = Rule.ofWords .ignore t.words := Rule.ofWords_ignore_take _

/-- A word behind a rule may be ignored even if it would close the quote in front
of the last literal, and may be refused. -/
theorem Dialect.parse_flat_trailing :
    let rule := Rule.or (.operand ⟨"f(x".toList, .greater, .bare "-5".toList⟩)
      (.operand ⟨"b".toList, .equal, .bare "'c".toList⟩)
    (Dialect.parse ⟨.flat, .ignore⟩ "f(x\t> -5 oR  b = 'c d'".toList = .ok rule
        ∧ rule.conditions.map Condition.render = ["f(x > -5".toList, "b = 'c".toList])
      ∧ Dialect.parse ⟨.flat, .ignore⟩ "f(x > -5 oR b = 'c".toList = .ok rule
      ∧ ¬ ∃ r, Dialect.parse ⟨.flat, .reject⟩ "f(x\t> -5 oR  b = 'c d'".toList = .ok r := by
  intro rule
  have hrule : Dialect.parse ⟨.flat, .ignore⟩ "f(x\t> -5 oR  b = 'c d'".toList = .ok rule :=
    toOption_eq_some_iff.1 (by decide +kernel)
  refine ⟨⟨hrule, ?_⟩, ?_, ?_⟩
  · rw [(Dialect.parse_flat_eq_ok_iff .ignore _).2.1 _ hrule]
    decide +kernel
  · rw [← hrule]
    exact (Dialect.parse_flat_eq_ok_iff .ignore _).2.2 _ (by decide +kernel)
  · rintro ⟨r, hr⟩
    have hlength := (((Dialect.parse_flat_eq_ok_iff .reject _).1 r).1 hr).2.1 rfl
    exact absurd hlength (by decide +kernel)

end AttributeRules
