import Mathlib.Data.List.Flatten
import AttributeRules.Proofs.Rule.Agreement
import AttributeRules.Proofs.Rule.Reread
import AttributeRules.Rule.Combine

/-!
# Joining texts and combining rules

Rules can be combined as trees, or their texts can be put into parentheses and
joined by AND. The result is the same rule either way, except where a field or a
bare literal of one text begins with a quote that a later text closes
(`Rule.parse_conjoined_iff`). Nothing else in a text has any bearing on another.

The tokens of the texts, the parentheses and the connectives derive the
combination: each text in its parentheses is a group, and the groups are the
links of a chain of ANDs, which folds to the left just as rules are combined
(`Derives.foldl_and`). Since the joined text is laid out from these tokens, it
is read as the combination exactly if it is scanned as them. A space stands on
either side of each text, so its tokens are scanned as they are alone – no word
takes the parenthesis that was put behind it, whatever the word has opened –
unless a quote is closed from behind (`Text.ofText_conjoined_iff`).
-/

namespace AttributeRules

open Token

/-! ## Texts joined by AND -/

namespace Text

/-- A text in parentheses, with a space on either side of it. -/
def grouped (t : Text) : Text := '(' :: ' ' :: t ++ [' ', ')']

/-- Texts in parentheses, joined by AND. -/
def conjoined (ts : List Text) : Text := " AND ".toList.intercalate (ts.map grouped)

example : conjoined ["a = 1".toList, "b > 2 OR c < 3".toList]
    = "( a = 1 ) AND ( b > 2 OR c < 3 )".toList := by decide

/-- What follows the first of some texts that are joined by AND. -/
def links (ts : List Text) : Text := ts.flatMap fun t => " AND ".toList ++ t.grouped

theorem links_cons (t : Text) (ts : List Text) :
    links (t :: ts) = ' ' :: (Connective.and.render ++ ' ' :: (t.grouped ++ links ts)) := by
  unfold links
  rw [List.flatMap_cons, List.append_assoc]
  rfl

theorem conjoined_cons (t : Text) (ts : List Text) :
    conjoined (t :: ts) = t.grouped ++ links ts := by
  unfold conjoined
  induction ts generalizing t with
  | nil => exact List.intercalate_singleton.trans (List.append_nil _).symm
  | cons next ts ih =>
    rw [List.map_cons, List.map_cons, List.intercalate_cons_cons, ← List.map_cons, ih,
      List.append_assoc]
    rfl

/-- The text in parentheses, one part after the other. -/
theorem grouped_append (t rest : Text) :
    t.grouped ++ rest = '(' :: ' ' :: (t ++ ' ' :: ')' :: rest) := by
  simp [grouped]

/-- Parentheses around a text add no closing quote. -/
theorem holdsClosing_grouped_append_iff {t rest : Text} :
    HoldsClosing (t.grouped ++ rest) ↔ HoldsClosing t ∨ HoldsClosing rest := by
  rw [grouped_append, holdsClosing_openParen, holdsClosing_space, holdsClosing_append_space,
    holdsClosing_closeParen]

/-- A closing quote behind the first of the texts joined is in one of the
others. -/
theorem holdsClosing_links_iff {ts : List Text} :
    HoldsClosing (links ts) ↔ ∃ t ∈ ts, HoldsClosing t := by
  induction ts with
  | nil => simp [links]
  | cons t ts ih =>
    rw [links_cons, Rule.holdsClosing_connective_append_iff, holdsClosing_grouped_append_iff, ih]
    simp only [List.mem_cons, exists_eq_or_imp]

/-! ## The tokens of the joined text -/

/-- The tokens of a text, in parentheses. -/
def groupTokens (t : Text) : List Token := .openParen :: (ofText t ++ [.closeParen])

/-- The tokens behind the first of some texts that are joined by AND. -/
def linkTokens (ts : List Text) : List Token :=
  ts.flatMap fun t => .word Connective.and.render :: t.groupTokens

theorem linkTokens_cons (t : Text) (ts : List Text) :
    linkTokens (t :: ts) = .word Connective.and.render :: (t.groupTokens ++ linkTokens ts) := rfl

theorem laid_grouped (t : Text) : Laid t.groupTokens t.grouped :=
  laid_cons .openParen ((laid_ofText t).append (laid_singleton .closeParen).space).space

theorem laid_links (ts : List Text) : Laid (linkTokens ts) (links ts) := by
  induction ts with
  | nil => simp [linkTokens, links, Laid]
  | cons t ts ih =>
    rw [links_cons, linkTokens_cons]
    exact (laid_cons (.word Connective.and.render) ((laid_grouped t).append ih).space).space

/-- Every token of a text in parentheses is a token on its own. -/
theorem fits_of_mem_groupTokens {t : Text} : ∀ token ∈ t.groupTokens, token.Fits [] := by
  refine List.forall_mem_cons.2 ⟨fits_openParen [], List.forall_mem_append.2 ⟨?_, ?_⟩⟩
  · exact fun _ => fits_of_mem_ofText
  · exact List.forall_mem_singleton.2 (fits_closeParen [])

theorem fits_of_mem_linkTokens {ts : List Text} : ∀ token ∈ linkTokens ts, token.Fits [] := by
  induction ts with
  | nil => exact fun _ h => absurd h List.not_mem_nil
  | cons t ts ih =>
    rw [linkTokens_cons]
    exact List.forall_mem_cons.2 ⟨(Rule.fits_connective .and []).alone,
      List.forall_mem_append.2 ⟨fits_of_mem_groupTokens, ih⟩⟩

/-! ## Quotes from text to text -/

/-- Whether no word of a text begins with a quote that a later text closes. -/
def KeepsQuotes (t later : Text) : Prop :=
  ∀ token ∈ ofText t, token.OpensQuote → ¬ HoldsClosing later

/-- **Texts keep each other's quotes exactly if their tokens, taken together,
are unclosed.** -/
theorem pairwise_keepsQuotes_iff {ts : List Text} :
    ts.Pairwise KeepsQuotes ↔ Unclosed (ts.flatMap ofText) := by
  have htexts : Unclosed (ts.flatMap ofText) ↔ (∀ t ∈ ts, Unclosed (ofText t))
      ∧ ts.Pairwise fun t later => ∀ token ∈ ofText t, ∀ token' ∈ ofText later,
          token.OpensQuote → ¬ HoldsClosing token'.text := List.pairwise_flatMap
  rw [htexts, and_iff_right fun t _ => unclosed_ofText t]
  refine List.Pairwise.iff fun t later => ?_
  unfold KeepsQuotes
  rw [holdsClosing_iff_ofText]
  exact ⟨fun h token htoken token' htoken' hopens hcloses =>
      h token htoken hopens ⟨token', htoken', hcloses⟩,
    fun h token htoken hopens ⟨token', htoken', hcloses⟩ =>
      h token htoken token' htoken' hopens hcloses⟩

/-- A text in parentheses keeps its tokens where nothing that follows closes a
quote of it. -/
theorem ofText_grouped_append {t rest : Text}
    (hquotes : ∀ token ∈ ofText t, token.OpensQuote → ¬ HoldsClosing rest) :
    ofText (t.grouped ++ rest) = t.groupTokens ++ ofText rest := by
  have hafter : ∀ token ∈ ofText t, token.OpensQuote → ¬ HoldsClosing (' ' :: ')' :: rest) := by
    intro token htoken hopens
    rw [holdsClosing_space, holdsClosing_closeParen]
    exact hquotes token htoken hopens
  have hscan : ofText (t ++ ' ' :: ')' :: rest) = ofText t ++ ofText (' ' :: ')' :: rest) :=
    (ofText_append_iff (endsWord_space _)).2 hafter
  rw [grouped_append, ofText_openParen, ofText_space, hscan, ofText_space, ofText_closeParen,
    groupTokens, List.cons_append, List.append_assoc, List.singleton_append]

/-- The first of the texts joined keeps its tokens if the others keep its
quotes. -/
theorem ofText_grouped_append_links {t : Text} {ts : List Text}
    (h : ∀ later ∈ ts, KeepsQuotes t later) :
    ofText (t.grouped ++ links ts) = t.groupTokens ++ ofText (links ts) := by
  refine ofText_grouped_append fun token htoken hopens hcloses => ?_
  obtain ⟨later, hlater, hcloses⟩ := holdsClosing_links_iff.1 hcloses
  exact h later hlater token htoken hopens hcloses

theorem ofText_links {ts : List Text} (h : ts.Pairwise KeepsQuotes) :
    ofText (links ts) = linkTokens ts := by
  induction ts with
  | nil => exact ofText_nil
  | cons t ts ih =>
    obtain ⟨hlater, hts⟩ := List.pairwise_cons.1 h
    rw [links_cons, Rule.ofText_connective_append, ofText_grouped_append_links hlater, ih hts,
      linkTokens_cons]

/-- **Texts that are joined keep their tokens exactly if they keep each other's
quotes.** -/
theorem ofText_conjoined_iff {t : Text} {ts : List Text} :
    ofText (conjoined (t :: ts)) = t.groupTokens ++ linkTokens ts
      ↔ (t :: ts).Pairwise KeepsQuotes := by
  rw [conjoined_cons]
  constructor
  · intro h
    have hunclosed := unclosed_ofText (t.grouped ++ links ts)
    rw [h] at hunclosed
    -- parentheses and connectives apart, these are the tokens of the texts
    have hgroup : ∀ t : Text, (ofText t).Sublist t.groupTokens := fun t =>
      (List.sublist_append_left ..).cons _
    have hlinks : (ts.flatMap ofText).Sublist (linkTokens ts) :=
      List.Sublist.flatMap_right ts fun t _ => (hgroup t).cons _
    exact pairwise_keepsQuotes_iff.2 (hunclosed.sublist ((hgroup t).append hlinks))
  · intro h
    obtain ⟨hlater, hts⟩ := List.pairwise_cons.1 h
    rw [ofText_grouped_append_links hlater, ofText_links hts]

end Text

/-! ## The joined texts derive the combination -/

/-- **A chain of ANDs folds to the left**: a conjunction that is prolonged by
texts in parentheses derives what combining their rules with its own gives. -/
theorem Derives.foldl_and {ps : List (Text × Rule)} {before : List Token} {first : Rule}
    (h : Derives .conjunction before first)
    (hps : ∀ p ∈ ps, Derives .disjunction (ofText p.1) p.2) :
    Derives .conjunction (before ++ Text.linkTokens (ps.map Prod.fst))
      ((ps.map Prod.snd).foldl Rule.and first) := by
  induction ps generalizing before first with
  | nil =>
    rw [List.map_nil, Text.linkTokens, List.flatMap_nil, List.append_nil]
    exact h
  | cons p ps ih =>
    obtain ⟨hp, hps⟩ := List.forall_mem_cons.1 hps
    have hlonger := ih (.and h (Text.sameIgnoringCase_self _) (.group hp)) hps
    rw [List.append_assoc] at hlonger
    exact hlonger

/-! ## Quotes in front of fields and literals -/

/-- Whether the field of a condition begins with a quote, or its literal does
and is bare. -/
def Condition.OpensQuote (c : Condition) : Prop :=
  (word c.field).OpensQuote ∨ c.literal.token.OpensQuote

instance (c : Condition) : Decidable c.OpensQuote := inferInstanceAs (Decidable (_ ∨ _))

/-- Whether a field or a bare literal of a rule begins with a quote. -/
def Rule.OpensQuote (r : Rule) : Prop := ∃ c ∈ r.conditions, c.OpensQuote

instance (r : Rule) : Decidable r.OpensQuote :=
  inferInstanceAs (Decidable (∃ c ∈ r.conditions, c.OpensQuote))

theorem Condition.opensQuote_iff {c : Condition} :
    c.OpensQuote ↔ ∃ token ∈ c.tokens, token.OpensQuote := by
  have hsign : ¬ (word c.comparator.render).OpensQuote := c.comparator.head?_render_ne
  simp [OpensQuote, tokens, hsign]

/-- No quote begins a connective. -/
theorem Connective.not_opensQuote {op : Connective} {keyword : Text}
    (h : Text.sameIgnoringCase keyword op.render = true) : ¬ (word keyword).OpensQuote := by
  intro hopens
  exact (isPlain_of_sameIgnoringCase h _ (List.mem_of_mem_head? hopens)).2.2.2 rfl

/-- **Of the tokens a rule is derived from, only fields and bare literals can
begin with a quote and be words.** -/
theorem Derives.opensQuote_iff {symbol : Nonterminal} {tokens : List Token} {r : Rule}
    (h : Derives symbol tokens r) (hfits : ∀ token ∈ tokens, token.Fits []) :
    r.OpensQuote ↔ ∃ token ∈ tokens, token.OpensQuote := by
  constructor
  · rintro ⟨c, hc, hopens⟩
    obtain ⟨token, htoken, hopens⟩ := Condition.opensQuote_iff.1 hopens
    have hmem : token ∈ r.conditionTokens := List.mem_flatMap.2 ⟨c, hc, htoken⟩
    exact ⟨token, (h.conditionTokens_sublist hfits).mem hmem, hopens⟩
  · rintro ⟨token, htoken, hopens⟩
    induction h with
    | @predicate tokens c hc =>
      rw [hc.eq_tokens hfits] at htoken
      exact ⟨c, List.mem_singleton_self c, Condition.opensQuote_iff.2 ⟨token, htoken, hopens⟩⟩
    | primary _ ih => exact ih hfits htoken
    | group _ ih =>
      rcases List.mem_cons.1 htoken with rfl | htoken
      · exact hopens.elim
      · rcases List.mem_append.1 htoken with hinside | hclose
        · exact ih (fun token htoken => hfits token (by simp [htoken])) hinside
        · obtain rfl := List.mem_singleton.1 hclose
          exact hopens.elim
    | conjunction _ ih => exact ih hfits htoken
    | disjunction _ ih => exact ih hfits htoken
    | and _ hkeyword _ ihleft ihright | or _ hkeyword _ ihleft ihright =>
      rcases List.mem_append.1 htoken with hl | hr
      · obtain ⟨c, hc, hopens⟩ := ihleft (fun _ h => hfits _ (List.mem_append_left _ h)) hl
        exact ⟨c, List.mem_append_left _ hc, hopens⟩
      · rcases List.mem_cons.1 hr with rfl | hr
        · exact absurd hopens (Connective.not_opensQuote hkeyword)
        · obtain ⟨c, hc, hopens⟩ := ihright (fun _ h => hfits _ (by simp [h])) hr
          exact ⟨c, List.mem_append_right _ hc, hopens⟩

namespace Rule

/-- A text that is read as a rule keeps its quotes before another one exactly
if no field and no bare literal of the rule begins with a quote or the other
text closes none. -/
theorem keepsQuotes_iff {t later : Text} {r : Rule} (h : Rule.parse t = .ok r) :
    t.KeepsQuotes later ↔ (r.OpensQuote → ¬ Text.HoldsClosing later) := by
  rw [(ofTokens_eq_ok_iff.1 h).opensQuote_iff fun _ => fits_of_mem_ofText]
  exact ⟨fun hkeeps ⟨token, htoken, hopens⟩ => hkeeps token htoken hopens,
    fun hkeeps token htoken hopens => hkeeps ⟨token, htoken, hopens⟩⟩

/-- **Joining the texts of rules is combining the rules**, exactly if no field
and no bare literal that begins with a quote comes before a text with a closing
quote. -/
theorem parse_conjoined_iff {ps : List (Text × Rule)} (hne : ps ≠ [])
    (hparse : ∀ p ∈ ps, Rule.parse p.1 = .ok p.2) :
    ∃ r, combine? (ps.map Prod.snd) = some r
      ∧ (Rule.parse (Text.conjoined (ps.map Prod.fst)) = .ok r
        ↔ ps.Pairwise fun p later => p.2.OpensQuote → ¬ Text.HoldsClosing later.1) := by
  have hquotes : (ps.map Prod.fst).Pairwise Text.KeepsQuotes
      ↔ ps.Pairwise fun p later => p.2.OpensQuote → ¬ Text.HoldsClosing later.1 :=
    List.pairwise_map.trans (List.Pairwise.iff_of_mem fun hp _ => keepsQuotes_iff (hparse _ hp))
  rw [← hquotes]
  cases ps with
  | nil => exact absurd rfl hne
  | cons p ps =>
    have hderives : ∀ q ∈ p :: ps, Derives .disjunction (ofText q.1) q.2 := fun q hq =>
      ofTokens_eq_ok_iff.1 (hparse q hq)
    obtain ⟨hp, hps⟩ := List.forall_mem_cons.1 hderives
    have hchain := Derives.foldl_and (.conjunction (.group hp)) hps
    have hlaid : Laid (p.1.groupTokens ++ Text.linkTokens (ps.map Prod.fst))
        (Text.conjoined (p.1 :: ps.map Prod.fst)) := by
      rw [Text.conjoined_cons]
      exact (Text.laid_grouped _).append (Text.laid_links _)
    have hfits : ∀ token ∈ p.1.groupTokens ++ Text.linkTokens (ps.map Prod.fst), token.Fits [] :=
      List.forall_mem_append.2 ⟨Text.fits_of_mem_groupTokens, Text.fits_of_mem_linkTokens⟩
    refine ⟨(ps.map Prod.snd).foldl and p.2, rfl, ?_⟩
    rw [List.map_cons, parse_eq_ok_iff_of_laid hlaid hfits (.disjunction hchain),
      Text.ofText_conjoined_iff]

/-- A quoted literal may come before a quote that nothing closes, and a word
that leaves a parenthesis open before a parenthesis. A quote that begins the
literal of one text and ends that of the next must not. -/
theorem parse_conjoined_open_closed :
    let first := Rule.operand ⟨"c".toList, .equal, .quoted "o k".toList⟩
    let second := Rule.or (.operand ⟨"a".toList, .equal, .bare "'x".toList⟩)
      (.operand ⟨"b".toList, .greater, .bare "f(2".toList⟩)
    let third := Rule.operand ⟨"d".toList, .less, .bare "y'".toList⟩
    let text₁ := "c = 'o k'".toList
    let text₂ := "a = 'x OR b > f(2".toList
    let text₃ := "d < y'".toList
    Rule.parse (Text.conjoined [text₁, text₂]) = .ok (.and first second)
      ∧ Rule.parse (Text.conjoined [text₂, text₃]) ≠ .ok (.and second third) := by
  intro first second third text₁ text₂ text₃
  have hfirst : Rule.parse text₁ = .ok first := toOption_eq_some_iff.1 (by decide +kernel)
  have hsecond : Rule.parse text₂ = .ok second := toOption_eq_some_iff.1 (by decide +kernel)
  have hthird : Rule.parse text₃ = .ok third := toOption_eq_some_iff.1 (by decide +kernel)
  have hopen : ∀ p ∈ [(text₁, first), (text₂, second)], Rule.parse p.1 = .ok p.2 :=
    List.forall_mem_cons.2 ⟨hfirst, List.forall_mem_singleton.2 hsecond⟩
  have hclosed : ∀ p ∈ [(text₂, second), (text₃, third)], Rule.parse p.1 = .ok p.2 :=
    List.forall_mem_cons.2 ⟨hsecond, List.forall_mem_singleton.2 hthird⟩
  constructor
  · obtain ⟨r, hcombine, hread⟩ := parse_conjoined_iff (List.cons_ne_nil _ _) hopen
    rw [← Option.some.inj hcombine] at hread
    exact hread.2 (by decide +kernel)
  · obtain ⟨r, hcombine, hread⟩ := parse_conjoined_iff (List.cons_ne_nil _ _) hclosed
    rw [← Option.some.inj hcombine] at hread
    exact fun h => absurd (hread.1 h) (by decide +kernel)

end Rule

end AttributeRules
