import AttributeRules.Token.Scan

/-!
# Where quotes close and words end

The scan of a text looks ahead as far as it has to: whether a quote opens a
literal depends on everything to its right, and where a word ends depends on
the parentheses it has opened before. This module says what that look-ahead
finds in terms of the characters alone.

For quotes there is one notion, `Text.HoldsClosing`: somewhere in the text
stands a quote directly followed by a blank, a closing parenthesis or the
end. The scan for the end of a literal fails exactly where there is none
(`Text.splitQuoted?_eq_none_iff`), and it does not matter what a text is
followed by as long as that is itself a place where a quote closes
(`Text.holdsClosing_append`). For words there is the number of parentheses
still open after some of their characters, `Text.wordDepth?`, and what can
end a word at that depth, `Text.StopsWord`.
-/

namespace AttributeRules

namespace Text

@[simp] theorem isBlank_space : isBlank ' ' = true := by decide

@[simp] theorem isBlank_quoteMark : isBlank quoteMark = false := by decide

/-! ## Closing quotes -/

/-- Whether a text holds a quote that closes a literal: one that is directly
followed by a blank, by a closing parenthesis or by the end. -/
def HoldsClosing (t : Text) : Prop :=
  ∃ before after, t = before ++ quoteMark :: after ∧ endsQuote after = true

@[simp] theorem not_holdsClosing_nil : ¬ HoldsClosing [] := by
  rintro ⟨before, after, h, -⟩
  exact absurd h (by simp)

theorem holdsClosing_cons {c : Char} {t : Text} :
    HoldsClosing (c :: t) ↔ (c = quoteMark ∧ endsQuote t = true) ∨ HoldsClosing t := by
  constructor
  · rintro ⟨before, after, h, hends⟩
    cases before with
    | nil =>
      obtain ⟨rfl, rfl⟩ := List.cons.inj h
      exact Or.inl ⟨rfl, hends⟩
    | cons b before =>
      obtain ⟨-, rfl⟩ := List.cons.inj h
      exact Or.inr ⟨before, after, rfl, hends⟩
  · rintro (⟨rfl, hends⟩ | ⟨before, after, rfl, hends⟩)
    · exact ⟨[], t, rfl, hends⟩
    · exact ⟨c :: before, after, rfl, hends⟩

/-- **The scan for the end of a literal fails exactly where nothing closes
one.** -/
theorem splitQuoted?_eq_none_iff {t : Text} : splitQuoted? t = none ↔ ¬ HoldsClosing t := by
  induction t with
  | nil => exact iff_of_true rfl not_holdsClosing_nil
  | cons c t ih =>
    rw [splitQuoted?, holdsClosing_cons, not_or, ← ih]
    split
    · next h => simp [h]
    · next h => simp [h]

instance (t : Text) : Decidable (HoldsClosing t) :=
  decidable_of_iff (splitQuoted? t ≠ none) (by
    rw [Ne, splitQuoted?_eq_none_iff, Classical.not_not])

/-- What follows a text that ends where a quote closes changes nothing about
where the text is. -/
theorem endsQuote_append {t : Text} (s : Text) (h : endsQuote t = true) :
    endsQuote (s ++ t) = endsQuote s := by
  cases s with
  | nil => exact h
  | cons c s => rfl

/-- **A closing quote in a text that is cut at the end of a token is one of
either part.** A quote that ends the first part closes a literal there, and
does so in the whole text too. -/
theorem holdsClosing_append {s t : Text} (h : endsQuote t = true) :
    HoldsClosing (s ++ t) ↔ HoldsClosing s ∨ HoldsClosing t := by
  induction s with
  | nil => simp
  | cons c s ih =>
    rw [List.cons_append, holdsClosing_cons, holdsClosing_cons, endsQuote_append s h, ih, or_assoc]

/-- A character that is no quote adds no closing quote. -/
theorem holdsClosing_cons_of_ne {c : Char} {t : Text} (h : c ≠ quoteMark) :
    HoldsClosing (c :: t) ↔ HoldsClosing t := by
  rw [holdsClosing_cons]
  exact or_iff_right fun hc => h hc.1

@[simp] theorem holdsClosing_space {t : Text} : HoldsClosing (' ' :: t) ↔ HoldsClosing t :=
  holdsClosing_cons_of_ne (by decide)

@[simp] theorem holdsClosing_openParen {t : Text} : HoldsClosing ('(' :: t) ↔ HoldsClosing t :=
  holdsClosing_cons_of_ne (by decide)

@[simp] theorem holdsClosing_closeParen {t : Text} : HoldsClosing (')' :: t) ↔ HoldsClosing t :=
  holdsClosing_cons_of_ne (by decide)

/-- A closing quote in two texts with a space between them is one of either. -/
theorem holdsClosing_append_space {s t : Text} :
    HoldsClosing (s ++ ' ' :: t) ↔ HoldsClosing s ∨ HoldsClosing t := by
  rw [holdsClosing_append (t := ' ' :: t) rfl, holdsClosing_space]

/-- A text that ends with a quote holds a closing one. -/
theorem holdsClosing_concat (t : Text) : HoldsClosing (t ++ [quoteMark]) :=
  ⟨t, [], rfl, rfl⟩

/-! ## The end of a literal -/

/-- Whether the last character of a text, and none before it, is a quote that
closes a literal. -/
def EndsAtClosing (t : Text) : Prop := splitQuoted? t = some (t, [])

instance (t : Text) : Decidable (EndsAtClosing t) :=
  inferInstanceAs (Decidable (_ = some _))

/-- A literal ends with the quote that closes it. -/
theorem exists_concat_of_splitQuoted? {t inside rest : Text}
    (h : splitQuoted? t = some (inside, rest)) : ∃ s, inside = s ++ [quoteMark] := by
  induction t generalizing inside rest with
  | nil => exact absurd h (by simp [splitQuoted?])
  | cons c t ih =>
    rw [splitQuoted?] at h
    split at h
    · next hc =>
      cases h
      exact ⟨[], by rw [hc.1]; rfl⟩
    · obtain ⟨⟨inside', rest'⟩, hsplit, heq⟩ := Option.map_eq_some_iff.1 h
      cases heq
      obtain ⟨s, rfl⟩ := ih hsplit
      exact ⟨c :: s, rfl⟩

/-- **A literal ends at its first closing quote**, whatever follows it there,
provided that what follows lets a quote close. -/
theorem splitQuoted?_append_iff {s t : Text} :
    splitQuoted? (s ++ t) = some (s, t) ↔ EndsAtClosing s ∧ endsQuote t = true := by
  unfold EndsAtClosing
  induction s with
  | nil =>
    refine iff_of_false (fun h => ?_) (fun h => ?_)
    · obtain ⟨s, hs⟩ := exists_concat_of_splitQuoted? h
      exact absurd hs (by simp)
    · exact absurd h.1 (by simp [splitQuoted?])
  | cons c s ih =>
    rw [List.cons_append, splitQuoted?, splitQuoted?]
    cases s with
    | nil =>
      have hnil : ∀ t : Text, splitQuoted? t ≠ some ([], t) := fun t h => by
        obtain ⟨s, hs⟩ := exists_concat_of_splitQuoted? h
        exact absurd hs (by simp)
      have hclosed : endsQuote [] = true := rfl
      rw [List.nil_append, hclosed]
      by_cases hc : c = quoteMark
      · by_cases ht : endsQuote t = true
        · simp [hc, ht]
        · simp [hc, ht, hnil]
      · simp [hc, splitQuoted?, hnil]
    | cons d s =>
      -- whether the quote closes is decided by a character that both sides share
      have hends : endsQuote (d :: s ++ t) = endsQuote (d :: s) := rfl
      rw [hends]
      by_cases hc : c = quoteMark ∧ endsQuote (d :: s) = true
      · simp [hc]
      · rw [if_neg hc, if_neg hc, Option.map_eq_some_iff, Option.map_eq_some_iff]
        simpa using ih

/-! ## The end of a word -/

/-- The number of parentheses of a word that are open after some more of its
characters, when `depth` of them were open before; none if one of these
characters ends the word. -/
def wordDepth? (depth : Nat) : Text → Option Nat
  | [] => some depth
  | c :: t =>
    if isBlank c ∨ (c = ')' ∧ depth = 0) then none
    else wordDepth? (if c = '(' then depth + 1 else if c = ')' then depth - 1 else depth) t

/-- Whether a word with `depth` open parentheses ends before a text: at the
end, at a blank, or at a closing parenthesis that closes none of the word. -/
def StopsWord (depth : Nat) : Text → Prop
  | [] => True
  | c :: _ => isBlank c = true ∨ (c = ')' ∧ depth = 0)

instance (depth : Nat) : (t : Text) → Decidable (StopsWord depth t)
  | [] => inferInstanceAs (Decidable True)
  | _ :: _ => inferInstanceAs (Decidable (_ ∨ _))

@[simp] theorem stopsWord_nil (depth : Nat) : StopsWord depth [] := trivial

@[simp] theorem stopsWord_space (depth : Nat) (t : Text) : StopsWord depth (' ' :: t) :=
  Or.inl isBlank_space

/-- Where a word ends, a quote closes. -/
theorem StopsWord.endsQuote {depth : Nat} {t : Text} (h : StopsWord depth t) :
    Text.endsQuote t = true := by
  cases t with
  | nil => rfl
  | cons c t =>
    show (isBlank c || c == ')') = true
    rcases h with hc | ⟨rfl, -⟩
    · rw [hc]
      rfl
    · simp

/-- **The scan of a word takes exactly the characters after which the word
can end.** -/
theorem splitWord_append_iff {depth : Nat} {u rest : Text} :
    splitWord depth (u ++ rest) = (u, rest)
      ↔ ∃ d, wordDepth? depth u = some d ∧ StopsWord d rest := by
  induction u generalizing depth with
  | nil =>
    show splitWord depth rest = ([], rest) ↔ ∃ d, some depth = some d ∧ StopsWord d rest
    rw [show (∃ d, some depth = some d ∧ StopsWord d rest) ↔ StopsWord depth rest from by simp]
    cases rest with
    | nil => exact iff_of_true rfl trivial
    | cons c t =>
      rw [splitWord]
      show _ ↔ isBlank c = true ∨ (c = ')' ∧ depth = 0)
      split
      · next h => exact iff_of_true rfl h
      · next h => simp [h]
  | cons c u ih =>
    rw [List.cons_append, splitWord, wordDepth?]
    split
    · simp
    · rw [← ih]
      simp [Prod.ext_iff]

/-- **The open parentheses of a word are counted by its characters.** -/
theorem count_of_wordDepth? {depth d : Nat} {u : Text} (h : wordDepth? depth u = some d) :
    d + u.count ')' = depth + u.count '(' := by
  induction u generalizing depth with
  | nil =>
    cases h
    rfl
  | cons c u ih =>
    rw [wordDepth?] at h
    split at h
    · exact absurd h (by simp)
    · next hstop =>
      have hu := ih h
      by_cases ho : c = '('
      · rw [if_pos ho] at hu
        rw [ho, List.count_cons_self, List.count_cons_of_ne (by decide)]
        omega
      · rw [if_neg ho] at hu
        rw [List.count_cons_of_ne (b := c) ho]
        by_cases hc : c = ')'
        · -- the parenthesis closes one of the word, so there is one to close
          have hdepth : depth ≠ 0 := fun h0 => hstop (Or.inr ⟨hc, h0⟩)
          rw [if_pos hc] at hu
          rw [hc, List.count_cons_self]
          omega
        · rw [if_neg hc] at hu
          rw [List.count_cons_of_ne hc]
          exact hu

end Text

end AttributeRules
