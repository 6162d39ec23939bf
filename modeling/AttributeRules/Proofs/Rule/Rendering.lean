import AttributeRules.Proofs.Rule.Layout

/-!
# The text of a rule, read back

The text of a rule is read back as the rule exactly if each token it was laid
out from fits in front of what follows it in the text. Parentheses,
comparators, connectives and quoted literals always fit. The other tokens are
the fields and the bare literals, and `Rule.bareWords` lists them, each with
what follows it (`Rule.exists_append_of_mem_bareWords`).

There are two ways in which one of them fails to fit. A bare literal that
leaves a parenthesis open swallows the closing parenthesis put behind it, and
there is one behind the last literal of every branch but the topmost
(`Rule.ClosesGroups`). And a quote that begins a word is closed by the first
closing quote behind it, however many conditions later (`Rule.QuotesInert`).
`Rule.parse_render_eq_ok_iff` says that these are all.
-/

namespace AttributeRules

open Token

/-! ## Words that can go wrong -/

/-- The field of a condition and its literal if that is bare, each with what
follows it where the text of the condition is followed by `rest`. -/
def Condition.bareWords (c : Condition) (rest : Text) : List (Text × Text) :=
  (c.field, ' ' :: (c.comparator.render ++ ' ' :: (c.literal.render ++ rest))) ::
    match c.literal with
    | .bare w => [(w, rest)]
    | .quoted _ => []

/-- Whether a literal is a word that leaves a parenthesis open. -/
def Literal.LeavesOpen : Literal → Prop
  | .bare w => w.LeavesOpen
  | .quoted _ => False

instance : (l : Literal) → Decidable l.LeavesOpen
  | .bare w => inferInstanceAs (Decidable w.LeavesOpen)
  | .quoted _ => inferInstanceAs (Decidable False)

/-- **A condition is scanned as laid out exactly where its field and its bare
literal fit.** -/
theorem Condition.ofText_render_append_iff {c : Condition} (h : c.ReadsBack) {rest : Text}
    (hrest : Text.endsQuote rest = true) {after : List Token} :
    ofText (c.render ++ rest) = c.tokens ++ after
      ↔ (∀ p ∈ c.bareWords rest, (word p.1).Fits p.2) ∧ ofText rest = after := by
  obtain ⟨hfield, hliteral, -⟩ := Condition.readsBack_iff.1 h
  have hsplit : c.render ++ rest
      = c.field ++ ' ' :: (c.comparator.render ++ ' ' :: (c.literal.token.text ++ rest)) := by
    simp [render_eq]
  have hsign : ∀ t, ofText (c.comparator.render ++ ' ' :: t)
      = word c.comparator.render :: ofText t := fun t => by
    rw [ofText_word_append (fits_comparator c.comparator t), ofText_space]
  have hlast : ofText (c.literal.token.text ++ rest) = c.literal.token :: after
      ↔ c.literal.token.Fits rest ∧ ofText rest = after :=
    ofText_append_eq_cons_iff hliteral
  have hfirst : ofText (c.render ++ rest) = c.tokens ++ after
      ↔ (word c.field).Fits (' ' :: (c.comparator.render ++ ' ' :: (c.literal.render ++ rest)))
        ∧ c.literal.token.Fits rest ∧ ofText rest = after := by
    rw [hsplit, Literal.text_token]
    refine (ofText_append_eq_cons_iff hfield).trans ?_
    rw [ofText_space, hsign, ← hlast, Literal.text_token]
    exact and_congr_right fun _ => List.cons_inj_right _
  rw [hfirst, ← and_assoc]
  refine and_congr_left fun _ => ?_
  unfold bareWords
  rw [List.forall_mem_cons]
  refine and_congr_right fun _ => ?_
  cases hl : c.literal with
  | bare w =>
    show (word w).Fits rest ↔ ∀ p ∈ [(w, rest)], (word p.1).Fits p.2
    rw [List.forall_mem_singleton]
  | quoted content =>
    rw [hl] at hliteral
    exact iff_of_true (hliteral.quoted_before hrest) (by simp)

namespace Rule

/-- What opens the text of a child. -/
def opening (child : Rule) : Text := if child.isOperand then [] else ['(']

/-- What closes the text of a child. -/
def closing (child : Rule) : Text := if child.isOperand then [] else [')']

/-- The text of a child is closed before anything else follows. -/
theorem enclose_append (child : Rule) (t rest : Text) :
    enclose child t ++ rest = child.opening ++ (t ++ (child.closing ++ rest)) := by
  unfold enclose opening closing
  split <;> simp

/-- The text of a branch, one part after the other. -/
theorem render_branch_append (op : Connective) (left right : Rule) (rest : Text) :
    (branch op left right).render ++ rest
      = enclose left left.render
          ++ ' ' :: (op.render ++ ' ' :: (enclose right right.render ++ rest)) := by
  simp [render]

/-- **The fields and the bare literals of a rule**, from left to right, each
with what follows it where the text of the rule is followed by `rest`. -/
def bareWords : Rule → Text → List (Text × Text)
  | operand c, rest => c.bareWords rest
  | branch op left right, rest =>
    left.bareWords
        (left.closing ++ ' ' :: (op.render ++ ' ' :: (enclose right right.render ++ rest)))
      ++ right.bareWords (right.closing ++ rest)

/-- The parts of a rule below its top, the whole of each side before the parts
of either. -/
def properParts : Rule → List Rule
  | operand _ => []
  | branch _ left right => left :: right :: (left.properParts ++ right.properParts)

/-- The rightmost condition of a rule. -/
def lastCondition : Rule → Condition
  | operand c => c
  | branch _ _ right => right.lastCondition

/-- **No branch below the top ends with a word that leaves a parenthesis
open.** -/
def ClosesGroups (r : Rule) : Prop :=
  ∀ part ∈ r.properParts, part.isOperand = false → ¬ part.lastCondition.literal.LeavesOpen

/-- **No field and no bare literal that begins with a quote is followed, in
the text of the rule, by anything that closes it.** -/
def QuotesInert (r : Rule) : Prop := ∀ p ∈ r.bareWords [], Text.QuoteInert p.1 p.2

instance (r : Rule) : Decidable r.ClosesGroups :=
  inferInstanceAs (Decidable (∀ part ∈ r.properParts, _ → ¬ _))

instance (r : Rule) : Decidable r.QuotesInert :=
  inferInstanceAs (Decidable (∀ p ∈ r.bareWords [], _))

/-- Nothing is left out: the words listed are the field and the bare literal
of every condition. -/
theorem map_fst_bareWords (r : Rule) (rest : Text) :
    (r.bareWords rest).map Prod.fst
      = r.conditions.flatMap fun c => (c.bareWords []).map Prod.fst := by
  induction r generalizing rest with
  | operand c =>
    rw [conditions_operand, List.flatMap_singleton, bareWords]
    unfold Condition.bareWords
    cases c.literal <;> rfl
  | branch op left right ihleft ihright =>
    rw [conditions_branch, List.flatMap_append, bareWords, List.map_append, ihleft, ihright]

/-- What is listed after a word is what follows it in the text. -/
theorem exists_append_of_mem_bareWords {r : Rule} {rest : Text} {p : Text × Text}
    (h : p ∈ r.bareWords rest) : ∃ before, r.render ++ rest = before ++ (p.1 ++ p.2) := by
  induction r generalizing rest with
  | operand c =>
    rw [render_operand, Condition.render_eq]
    rcases List.mem_cons.1 h with rfl | h
    · exact ⟨[], by simp⟩
    · cases hl : c.literal with
      | bare w =>
        obtain rfl : p = (w, rest) := by simpa [hl] using h
        exact ⟨c.field ++ ' ' :: (c.comparator.render ++ [' ']), by simp [Literal.render]⟩
      | quoted content =>
        rw [hl] at h
        exact absurd h (by simp)
  | branch op left right ihleft ihright =>
    rw [render_branch_append, enclose_append]
    rcases List.mem_append.1 h with h | h
    · obtain ⟨before, hbefore⟩ := ihleft h
      exact ⟨left.opening ++ before, by rw [hbefore, List.append_assoc]⟩
    · obtain ⟨before, hbefore⟩ := ihright h
      rw [enclose_append right, hbefore]
      refine ⟨left.opening ++ (left.render ++ (left.closing
        ++ ' ' :: (op.render ++ ' ' :: (right.opening ++ before)))), ?_⟩
      simp

/-! ## Scanned as laid out -/

/-- Every listed word of a rule that can be stored is a token on its own. -/
theorem fits_of_mem_bareWords {r : Rule} (h : r.Storable) {rest : Text} :
    ∀ p ∈ r.bareWords rest, (word p.1).Fits [] := by
  induction r generalizing rest with
  | operand c =>
    obtain ⟨hfield, hliteral, -⟩ := Condition.readsBack_iff.1 (storable_operand_iff.1 h)
    refine List.forall_mem_cons.2 ⟨hfield, ?_⟩
    cases hl : c.literal with
    | bare w =>
      rw [hl] at hliteral
      exact List.forall_mem_singleton.2 hliteral
    | quoted content => simp
  | branch op left right ihleft ihright =>
    obtain ⟨hleft, hright⟩ := storable_branch_iff.1 h
    exact List.forall_mem_append.2 ⟨ihleft hleft, ihright hright⟩

/-- What encloses a child changes nothing about how its text is scanned. -/
theorem ofText_enclose_append_iff {child : Rule} {rest : Text} {after : List Token}
    (hchild : ∀ {rest : Text}, Text.endsQuote rest = true → ∀ {after : List Token},
      ofText (child.render ++ rest) = child.tokens ++ after
        ↔ (∀ p ∈ child.bareWords rest, (word p.1).Fits p.2) ∧ ofText rest = after)
    (hrest : Text.endsQuote rest = true) :
    ofText (enclose child child.render ++ rest) = encloseTokens child child.tokens ++ after
      ↔ (∀ p ∈ child.bareWords (child.closing ++ rest), (word p.1).Fits p.2)
        ∧ ofText rest = after := by
  rw [enclose_append]
  unfold opening closing encloseTokens
  split
  · exact hchild hrest
  · rw [List.singleton_append, List.singleton_append, ofText_openParen, List.cons_append,
      List.append_assoc, List.cons_inj_right, hchild rfl, ofText_closeParen,
      List.singleton_append, List.cons_inj_right]

/-- **A rule is scanned as laid out exactly where each of its fields and its
bare literals fits.** Whatever follows the rule, its tokens are then those of
what follows. -/
theorem ofText_render_append_iff {r : Rule} (h : r.Storable) {rest : Text}
    (hrest : Text.endsQuote rest = true) {after : List Token} :
    ofText (r.render ++ rest) = r.tokens ++ after
      ↔ (∀ p ∈ r.bareWords rest, (word p.1).Fits p.2) ∧ ofText rest = after := by
  -- the left side is followed by the whole of the right one, hence `rest` and `after`
  induction r generalizing rest after with
  | operand c => exact Condition.ofText_render_append_iff (storable_operand_iff.1 h) hrest
  | branch op left right ihleft ihright =>
    obtain ⟨hleft, hright⟩ := storable_branch_iff.1 h
    rw [render_branch_append, tokens, List.append_assoc, List.cons_append,
      ofText_enclose_append_iff (ihleft hleft) rfl, ofText_connective_append, List.cons_inj_right,
      ofText_enclose_append_iff (ihright hright) hrest, ← and_assoc, bareWords,
      List.forall_mem_append]

/-! ## Where the words fit -/

/-- Where a quote can close, it can before the end of a child too. -/
theorem endsQuote_closing_append (child : Rule) {t : Text} (ht : Text.endsQuote t = true) :
    Text.endsQuote (child.closing ++ t) = true := by
  unfold closing
  split
  · exact ht
  · rfl

/-- What follows a listed word is a place where a quote can close. -/
theorem endsQuote_of_mem_bareWords {r : Rule} {rest : Text}
    (hrest : Text.endsQuote rest = true) : ∀ p ∈ r.bareWords rest, Text.endsQuote p.2 = true := by
  induction r generalizing rest with
  | operand c =>
    refine List.forall_mem_cons.2 ⟨rfl, ?_⟩
    cases c.literal with
    | bare w => exact List.forall_mem_singleton.2 hrest
    | quoted content => simp
  | branch op left right ihleft ihright =>
    exact List.forall_mem_append.2
      ⟨ihleft (endsQuote_closing_append left rfl), ihright (endsQuote_closing_append right hrest)⟩

/-- A closing parenthesis comes first behind a child that is a branch, and
otherwise where it comes first in what follows. -/
theorem head?_closing_append (child : Rule) (rest : Text) :
    (child.closing ++ rest).head? = some ')'
      ↔ child.isOperand = false ∨ rest.head? = some ')' := by
  unfold closing
  cases child.isOperand <;> simp

theorem closesGroups_branch_iff {op : Connective} {left right : Rule} :
    (branch op left right).ClosesGroups
      ↔ (left.ClosesGroups ∧ (left.isOperand = false → ¬ left.lastCondition.literal.LeavesOpen))
        ∧ (right.ClosesGroups
          ∧ (right.isOperand = false → ¬ right.lastCondition.literal.LeavesOpen)) := by
  unfold ClosesGroups
  rw [properParts, List.forall_mem_cons, List.forall_mem_cons, List.forall_mem_append]
  grind

/-- **Words can end exactly where no group is left open.** A word that leaves a
parenthesis open must not have a closing one behind it, and the only words
that have one are the last words of what is put into parentheses. -/
theorem words_stop_iff {r : Rule} {rest : Text} :
    (∀ p ∈ r.bareWords rest, Text.LeavesOpen p.1 → p.2.head? ≠ some ')')
      ↔ r.ClosesGroups ∧ (rest.head? = some ')' → ¬ r.lastCondition.literal.LeavesOpen) := by
  induction r generalizing rest with
  | operand c =>
    have hgroups : (operand c).ClosesGroups := by simp [ClosesGroups, properParts]
    show (∀ p ∈ c.bareWords rest, _) ↔ _ ∧ (_ → ¬ c.literal.LeavesOpen)
    unfold Condition.bareWords
    rw [List.forall_mem_cons, and_iff_right (fun _ => by simp), and_iff_right hgroups]
    cases c.literal with
    | bare w => exact List.forall_mem_singleton.trans imp_not_comm
    | quoted content => exact iff_of_true (by simp) fun _ => id
  | branch op left right ihleft ihright =>
    rw [bareWords, List.forall_mem_append, ihleft, ihright, closesGroups_branch_iff,
      head?_closing_append, head?_closing_append, lastCondition]
    simp only [List.head?_cons, Option.some.injEq]
    -- behind the left side stands the blank before the connective, unless it is closed first
    have hspace : ' ' ≠ ')' := by decide
    grind

/-- **A rule is read back from its text exactly where each of its fields and its
bare literals fits.** -/
theorem parse_render_iff_fits {r : Rule} (h : r.Storable) :
    Rule.parse r.render = .ok r ↔ ∀ p ∈ r.bareWords [], (word p.1).Fits p.2 := by
  have hscan : ofText (r.render ++ []) = r.tokens ++ []
      ↔ (∀ p ∈ r.bareWords [], (word p.1).Fits p.2) ∧ ofText [] = [] :=
    ofText_render_append_iff h rfl
  rw [List.append_nil, List.append_nil, ofText_nil, and_iff_left rfl] at hscan
  rw [parse_render_iff_tokens h, hscan]

/-- **They all fit exactly if** the words leave the groups of the rule closed and
no quote of theirs is closed by what follows. -/
theorem fits_bareWords_iff {r : Rule} (h : r.Storable) :
    (∀ p ∈ r.bareWords [], (word p.1).Fits p.2) ↔ r.ClosesGroups ∧ r.QuotesInert := by
  have hword : ∀ p ∈ r.bareWords [], (word p.1).Fits p.2
      ↔ (Text.LeavesOpen p.1 → p.2.head? ≠ some ')') ∧ Text.QuoteInert p.1 p.2 := fun p hp =>
    (fits_of_mem_bareWords h p hp).word_iff (endsQuote_of_mem_bareWords rfl p hp)
  calc (∀ p ∈ r.bareWords [], (word p.1).Fits p.2)
      ↔ (∀ p ∈ r.bareWords [], Text.LeavesOpen p.1 → p.2.head? ≠ some ')') ∧ r.QuotesInert := by
        rw [forall₂_congr hword]
        exact forall₂_and
    _ ↔ r.ClosesGroups ∧ r.QuotesInert := by
        rw [words_stop_iff, List.head?_nil, and_iff_left (fun h => nomatch h)]

/-- **The exact rules that are read back from their text.** A rule that can be
made is read back exactly if the words of its text leave its groups closed and
no quote of theirs is closed by what follows. -/
theorem parse_render_eq_ok_iff {r : Rule} (h : r.Constructible) :
    Rule.parse r.render = .ok r ↔ r.ClosesGroups ∧ r.QuotesInert := by
  have hstorable := h.storable
  rw [parse_render_iff_fits hstorable, fits_bareWords_iff hstorable]

/-- A quote in front of one literal is closed by the last character of
another, which takes the connective into the literal; a parenthesis left open
by the last word of a group takes the one that closes the group. -/
theorem parse_render_quote_paren :
    let quote := Rule.and (.operand ⟨"a".toList, .equal, .bare "'x".toList⟩)
      (.operand ⟨"b".toList, .equal, .bare "y'".toList⟩)
    let paren := Rule.or (.operand ⟨"a".toList, .equal, .bare "1".toList⟩)
      (.and (.operand ⟨"b".toList, .equal, .bare "2".toList⟩)
        (.operand ⟨"c".toList, .less, .bare "f(x".toList⟩))
    (quote.Constructible ∧ quote.ClosesGroups ∧ Rule.parse quote.render ≠ .ok quote)
      ∧ (paren.Constructible ∧ paren.QuotesInert ∧ Rule.parse paren.render ≠ .ok paren) := by
  intro quote paren
  have hword : ∀ {c : Condition}, c.ReadsBack → (Rule.operand c).Constructible := fun hc =>
    .condition hc.parse_render
  have hquote : quote.Constructible :=
    .branch (hword (by decide +kernel)) (hword (by decide +kernel))
  have hparen : paren.Constructible :=
    .branch (hword (by decide +kernel))
      (.branch (hword (by decide +kernel)) (hword (by decide +kernel)))
  refine ⟨⟨hquote, by decide +kernel, ?_⟩, ⟨hparen, by decide +kernel, ?_⟩⟩
  · rw [Ne, parse_render_eq_ok_iff hquote]
    decide +kernel
  · rw [Ne, parse_render_eq_ok_iff hparen]
    decide +kernel

end Rule

end AttributeRules
