import AttributeRules.Proofs.Rule.Grammar
import AttributeRules.Proofs.Token.Words
import AttributeRules.Rule.Flat

/-!
# What the flat grammar accepts

The flat grammar cuts a text into words, of which the first seven make a rule.
Three of them make a condition exactly if they are its tokens and it reads back
(`Condition.ofWords_eq_ok_iff`): a comparator and a literal have one spelling
each, and that the field is no more than a word is what reading back asks of
it. So the words accepted are those of two conditions that read back with a
connective between them, whatever the case of its letters
(`Rule.ofWords_eq_ok_iff`).
-/

namespace AttributeRules

open Token

/-! ## Single words -/

theorem Comparator.parse_eq_ok_iff {t : Text} {c : Comparator} :
    Comparator.parse t = .ok c ↔ t = c.render := by
  rw [← ofText?_eq_some_iff]
  unfold Comparator.parse
  cases ofText? t <;> simp

theorem Connective.parse_eq_ok_iff {t : Text} {op : Connective} :
    Connective.parse t = .ok op ↔ Text.sameIgnoringCase t op.render = true := by
  rw [← ofText?_eq_some_iff]
  unfold Connective.parse
  cases ofText? t <;> simp

/-- A text without blanks has a single token exactly if it is the text of that
token, which is one on its own. -/
theorem Token.ofText_eq_singleton_iff {t : Text} (ht : ∀ c ∈ t, isBlank c = false)
    {token : Token} : ofText t = [token] ↔ t = token.text ∧ token.Fits [] := by
  constructor
  · intro h
    obtain ⟨blanks, rest, hblanks, rfl, hfits, hrest⟩ := ofText_eq_cons_iff.1 h
    obtain ⟨hnone, ht⟩ := List.forall_mem_append.1 ht
    obtain ⟨-, ht⟩ := List.forall_mem_append.1 ht
    have hnil : blanks = [] := by
      cases blanks with
      | nil => rfl
      | cons b blanks =>
        have hb := hblanks b (List.mem_cons_self ..)
        exact absurd ((hnone b (List.mem_cons_self ..)).symm.trans hb) (by simp)
    have hend : rest = [] := by
      cases rest with
      | nil => rfl
      | cons c rest =>
        obtain ⟨_, _, _, -, -, hscan⟩ := exists_ofText_cons rest (ht c (List.mem_cons_self ..))
        exact absurd (hscan.symm.trans hrest) (by simp)
    rw [hnil, hend, List.nil_append, List.append_nil]
    exact ⟨rfl, hfits.alone⟩
  · rintro ⟨rfl, hfits⟩
    exact hfits.ofText_text

/-- **A text without blanks is read as a literal exactly if it is how that
literal is written**, and that is a token. -/
theorem Literal.parse_eq_ok_iff_render {t : Text} (ht : ∀ c ∈ t, isBlank c = false) {l : Literal} :
    Literal.parse t = .ok l ↔ t = l.render ∧ l.token.Fits [] := by
  rw [parse_eq_ok_iff, Token.ofText_eq_singleton_iff ht, text_token]

namespace Condition

/-- **Three words are read as a condition exactly if they are its tokens and it
reads back.** -/
theorem ofWords_eq_ok_iff {field sign literal : Text} (hliteral : ∀ c ∈ literal, isBlank c = false)
    {c : Condition} :
    ofWords field sign literal = .ok c
      ↔ [field, sign, literal] = c.tokens.map Token.text ∧ c.ReadsBack := by
  have htexts : c.tokens.map Token.text
      = [c.field, c.comparator.render, c.literal.render] := by
    rw [← c.literal.text_token]
    rfl
  rw [htexts]
  unfold ofWords
  simp only [bind_eq_ok_iff, Comparator.parse_eq_ok_iff, Literal.parse_eq_ok_iff_render hliteral,
    build_eq_ok_iff]
  constructor
  · rintro ⟨comparator, rfl, l, ⟨rfl, -⟩, rfl, hreads⟩
    exact ⟨rfl, hreads⟩
  · rintro ⟨hwords, hreads⟩
    obtain ⟨rfl, rfl, rfl⟩ := by simpa using hwords
    obtain ⟨-, hfits, -⟩ := readsBack_iff.1 hreads
    exact ⟨_, rfl, _, ⟨rfl, hfits⟩, rfl, hreads⟩

end Condition

namespace Rule

/-- The words of a flat rule, with a given spelling of its connective. -/
def flatWords (left : Condition) (keyword : Text) (right : Condition) : List Token :=
  left.tokens ++ .word keyword :: right.tokens

/-- Words are read as a rule exactly if a connective stands between two triples
that are read as conditions, and nothing follows that has to be refused. -/
theorem ofWords_eq_ok_iff_triples {policy : TrailingPolicy} {words : List Text} {r : Rule} :
    ofWords policy words = .ok r
      ↔ ∃ field₁ sign₁ literal₁ keyword field₂ sign₂ literal₂ trailing,
          words = field₁ :: sign₁ :: literal₁ :: keyword :: field₂ :: sign₂ :: literal₂ :: trailing
            ∧ (policy = .reject → trailing = [])
            ∧ ∃ left op right, Condition.ofWords field₁ sign₁ literal₁ = .ok left
              ∧ Text.sameIgnoringCase keyword op.render = true
              ∧ Condition.ofWords field₂ sign₂ literal₂ = .ok right
              ∧ r = branch op (operand left) (operand right) := by
  constructor
  · intro h
    unfold ofWords at h
    split at h
    · next field₁ sign₁ literal₁ keyword field₂ sign₂ literal₂ trailing =>
      split at h
      · exact absurd h (by simp)
      · next hpolicy =>
        obtain ⟨left, hleft, h⟩ := bind_eq_ok_iff.1 h
        obtain ⟨op, hop, h⟩ := bind_eq_ok_iff.1 h
        obtain ⟨right, hright, h⟩ := bind_eq_ok_iff.1 h
        have htrailing : policy = .reject → trailing = [] := fun hreject =>
          Classical.not_not.1 fun hne => hpolicy ⟨hreject, hne⟩
        exact ⟨_, _, _, _, _, _, _, trailing, rfl, htrailing, left, op, right, hleft,
          Connective.parse_eq_ok_iff.1 hop, hright, (Except.ok.inj h).symm⟩
    · exact absurd h (by simp)
  · rintro ⟨_, _, _, _, _, _, _, trailing, rfl, htrailing, left, op, right, hleft, hop, hright, rfl⟩
    have hpolicy : ¬ (policy = .reject ∧ trailing ≠ []) := fun h => h.2 (htrailing h.1)
    rw [ofWords, if_neg hpolicy, hleft, Connective.parse_eq_ok_iff.2 hop, hright]
    rfl

/-- **The words of a flat rule, and no others, are accepted**, with further
words behind them where the policy lets these be. -/
theorem ofWords_eq_ok_iff {policy : TrailingPolicy} {words : List Text}
    (hwords : ∀ w ∈ words, Text.IsRun w) {r : Rule} :
    ofWords policy words = .ok r
      ↔ ∃ left op keyword right trailing,
          words = (flatWords left keyword right).map Token.text ++ trailing
            ∧ (policy = .reject → trailing = []) ∧ left.ReadsBack ∧ right.ReadsBack
            ∧ Text.sameIgnoringCase keyword op.render = true
            ∧ r = branch op (operand left) (operand right) := by
  rw [ofWords_eq_ok_iff_triples]
  constructor
  · rintro ⟨field₁, sign₁, literal₁, keyword, field₂, sign₂, literal₂, trailing, rfl, htrailing,
      left, op, right, hleft, hop, hright, rfl⟩
    have hliteral₁ : Text.IsRun literal₁ := hwords _ (by simp)
    have hliteral₂ : Text.IsRun literal₂ := hwords _ (by simp)
    obtain ⟨hleft, hreadsleft⟩ := (Condition.ofWords_eq_ok_iff hliteral₁.2).1 hleft
    obtain ⟨hright, hreadsright⟩ := (Condition.ofWords_eq_ok_iff hliteral₂.2).1 hright
    refine ⟨left, op, keyword, right, trailing, ?_, htrailing, hreadsleft, hreadsright, hop, rfl⟩
    rw [flatWords, List.map_append, List.map_cons, ← hleft, ← hright]
    rfl
  · rintro ⟨left, op, keyword, right, trailing, rfl, htrailing, hleft, hright, hop, rfl⟩
    have hparse : ∀ c : Condition, c.ReadsBack → c.literal.token ∈ flatWords left keyword right →
        Condition.ofWords c.field c.comparator.render c.literal.token.text = .ok c := by
      intro c hc hmem
      have hrun := hwords _ (List.mem_append_left _ (List.mem_map_of_mem hmem))
      exact (Condition.ofWords_eq_ok_iff hrun.2).2 ⟨rfl, hc⟩
    have hparseleft := hparse left hleft (by simp [flatWords, Condition.tokens])
    have hparseright := hparse right hright (by simp [flatWords, Condition.tokens])
    exact ⟨_, _, _, keyword, _, _, _, trailing, rfl, htrailing, left, op, right, hparseleft, hop,
      hparseright, rfl⟩

end Rule

end AttributeRules
