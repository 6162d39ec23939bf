import AttributeRules.Dialect
import AttributeRules.Proofs.Condition.ReadBack

/-!
# The grammar of nested rules

`Derives` is the nested grammar, one constructor a production, as a relation
between a nonterminal, a sequence of tokens and the rule that the tokens
stand for:

    disjunction := conjunction ( OR conjunction )*
    conjunction := primary ( AND primary )*
    primary     := ( disjunction ) | predicate
    predicate   := WORD COMPARATOR ( WORD | QUOTED )

A chain of one connective folds to the left, so its production takes the last
link of the chain off: what stands before it is a shorter chain. Parentheses
leave no trace in the rule.

The reader knows nothing of nonterminals; it pushes and closes groups one
token at a time. `Reading.Holds` says what the state of the reader has made of
the tokens so far, every token changes the state so that this stays true
(`Reading.Holds.step`), and so what is read at the end is derived
(`Reading.derives_of_run`). In the other direction the reader follows every
derivation (`Derives.follows`). Together the two are `Rule.ofTokens_eq_ok_iff`,
and since the reader is a function, the grammar is unambiguous.
-/

namespace AttributeRules

/-! ## The productions -/

/-- The nonterminals of the nested grammar. -/
inductive Nonterminal where
  /-- Conjunctions joined by OR. -/
  | disjunction
  /-- Primaries joined by AND. -/
  | conjunction
  /-- A group or a condition. -/
  | primary
  /-- A condition. -/
  | predicate
deriving DecidableEq, Repr

/-- **The nested grammar.** -/
inductive Derives : Nonterminal → List Token → Rule → Prop
  /-- A conjunction alone is a disjunction. -/
  | disjunction {tokens : List Token} {r : Rule} (h : Derives .conjunction tokens r) :
      Derives .disjunction tokens r
  /-- A disjunction is prolonged by OR, in letters of either case, and a
  conjunction. -/
  | or {left right : List Token} {l r : Rule} {keyword : Text}
      (hleft : Derives .disjunction left l)
      (hkeyword : Text.sameIgnoringCase keyword Connective.or.render = true)
      (hright : Derives .conjunction right r) :
      Derives .disjunction (left ++ .word keyword :: right) (.or l r)
  /-- A primary alone is a conjunction. -/
  | conjunction {tokens : List Token} {r : Rule} (h : Derives .primary tokens r) :
      Derives .conjunction tokens r
  /-- A conjunction is prolonged by AND, in letters of either case, and a
  primary. -/
  | and {left right : List Token} {l r : Rule} {keyword : Text}
      (hleft : Derives .conjunction left l)
      (hkeyword : Text.sameIgnoringCase keyword Connective.and.render = true)
      (hright : Derives .primary right r) :
      Derives .conjunction (left ++ .word keyword :: right) (.and l r)
  /-- A disjunction in parentheses is a primary and stands for the same
  rule. -/
  | group {tokens : List Token} {r : Rule} (h : Derives .disjunction tokens r) :
      Derives .primary (.openParen :: (tokens ++ [.closeParen])) r
  /-- A predicate alone is a primary. -/
  | primary {tokens : List Token} {r : Rule} (h : Derives .predicate tokens r) :
      Derives .primary tokens r
  /-- A predicate is a word for the field, whatever word it is, the sign of a
  comparator and a literal. -/
  | predicate {tokens : List Token} {c : Condition} (h : c.SpelledBy tokens) :
      Derives .predicate tokens (.operand c)

theorem Text.sameIgnoringCase_self (t : Text) : sameIgnoringCase t t = true := beq_self_eq_true _

/-- Texts that differ at most in the case of letters are equally long. -/
theorem Text.length_eq_of_sameIgnoringCase {s t : Text} (h : sameIgnoringCase s t = true) :
    s.length = t.length := by
  simpa using congrArg List.length (eq_of_beq h)

namespace Connective

/-- A text is read as a connective exactly where it differs from its name at
most in the case of letters. -/
theorem ofText?_eq_some_iff {t : Text} {op : Connective} :
    ofText? t = some op ↔ Text.sameIgnoringCase t op.render = true := by
  unfold ofText?
  by_cases hand : Text.sameIgnoringCase t and.render = true
  · -- a text as long as the one name is not as long as the other
    have hor : Text.sameIgnoringCase t or.render ≠ true := fun h =>
      absurd ((Text.length_eq_of_sameIgnoringCase hand).symm.trans
        (Text.length_eq_of_sameIgnoringCase h)) (by decide)
    cases op <;> simp [hand, hor]
  · by_cases hor : Text.sameIgnoringCase t or.render = true
    · cases op <;> simp [hand, hor]
    · cases op <;> simp [hand, hor]

theorem ofToken?_eq_some_iff {token : Token} {op : Connective} :
    ofToken? token = some op
      ↔ ∃ keyword, token = .word keyword ∧ Text.sameIgnoringCase keyword op.render = true := by
  cases token with
  | word t => simp [ofToken?, ofText?_eq_some_iff]
  | quoted t => simp [ofToken?]
  | openParen => simp [ofToken?]
  | closeParen => simp [ofToken?]

end Connective

/-! ## The reader follows the grammar -/

namespace Reading

/-- Reading goes on from the state after the first token. -/
theorem run_cons {s next : Reading} {token : Token} (tokens : List Token)
    (h : s.step token = .ok next) : s.run (token :: tokens) = next.run tokens := by
  rw [run, h]
  rfl

theorem step_openParen (g : Group) (outer : List Group) :
    step ⟨g, outer, .start⟩ .openParen = .ok ⟨{}, g :: outer, .start⟩ := rfl

theorem step_closeParen (g g' : Group) (outer : List Group) (r : Rule) :
    step ⟨g, g' :: outer, .afterRule r⟩ .closeParen
      = .ok ⟨g', outer, .afterRule (g.close r)⟩ := rfl

theorem step_keyword {op : Connective} {keyword : Text} (g : Group) (outer : List Group) (r : Rule)
    (h : Text.sameIgnoringCase keyword op.render = true) :
    step ⟨g, outer, .afterRule r⟩ (.word keyword) = .ok ⟨g.continueWith r op, outer, .start⟩ := by
  unfold step continueRule
  rw [Connective.ofToken?_eq_some_iff.2 ⟨keyword, rfl, h⟩]

/-- **The reader takes the three tokens of a condition together.** -/
theorem run_predicate {c : Condition} {tokens : List Token} (hc : c.SpelledBy tokens) (g : Group)
    (outer : List Group) (rest : List Token) :
    run ⟨g, outer, .start⟩ (tokens ++ rest) = run ⟨g, outer, .afterRule (.operand c)⟩ rest := by
  obtain ⟨token, rfl, hdenotes⟩ := hc
  have hsign : (Token.word c.comparator.render).asComparator c.field = .ok c.comparator :=
    Token.asComparator_eq_ok_iff.2 rfl
  have hliteral : token.asLiteral c.field c.comparator = .ok c.literal :=
    Token.asLiteral_eq_ok_iff.2 hdenotes
  have hfirst : step ⟨g, outer, .start⟩ (.word c.field) = .ok ⟨g, outer, .afterField c.field⟩ := rfl
  have hsecond : step ⟨g, outer, .afterField c.field⟩ (.word c.comparator.render)
      = .ok ⟨g, outer, .afterComparator c.field c.comparator⟩ := by
    simp only [step, hsign]
    rfl
  have hthird : step ⟨g, outer, .afterComparator c.field c.comparator⟩ token
      = .ok ⟨g, outer, .afterRule (.operand c)⟩ := by
    simp only [step, hliteral]
    rfl
  show run _ (.word c.field :: .word c.comparator.render :: token :: rest) = _
  rw [run_cons _ hfirst, run_cons _ hsecond, run_cons _ hthird]

end Reading

/-- What it means for the reader to follow a nonterminal through its tokens.
After a primary the group is as it was and the rule is complete. After a
conjunction or a disjunction the last part of the chain is still at hand, and
what waits in the group would complete it. -/
def Nonterminal.Follows (tokens : List Token) (r : Rule) : Nonterminal → Prop
  | .disjunction => ∃ g r', g.close r' = r ∧ ∀ outer rest,
      Reading.run ⟨{}, outer, .start⟩ (tokens ++ rest) = Reading.run ⟨g, outer, .afterRule r'⟩ rest
  | .conjunction => ∀ beforeOr, ∃ beforeAnd r', Group.conjoin ⟨beforeOr, beforeAnd⟩ r' = r
      ∧ ∀ outer rest, Reading.run ⟨⟨beforeOr, none⟩, outer, .start⟩ (tokens ++ rest)
          = Reading.run ⟨⟨beforeOr, beforeAnd⟩, outer, .afterRule r'⟩ rest
  | .primary => ∀ g outer rest,
      Reading.run ⟨g, outer, .start⟩ (tokens ++ rest) = Reading.run ⟨g, outer, .afterRule r⟩ rest
  | .predicate => ∀ g outer rest,
      Reading.run ⟨g, outer, .start⟩ (tokens ++ rest) = Reading.run ⟨g, outer, .afterRule r⟩ rest

/-- **The reader follows every derivation.** -/
theorem Derives.follows {symbol : Nonterminal} {tokens : List Token} {r : Rule}
    (h : Derives symbol tokens r) : symbol.Follows tokens r := by
  induction h with
  | predicate hc => exact fun g outer rest => Reading.run_predicate hc g outer rest
  | primary _ ih => exact ih
  | group _ ih =>
    intro g outer rest
    obtain ⟨g', r', hclose, hrun⟩ := ih
    rw [List.cons_append, List.append_assoc, Reading.run_cons _ (Reading.step_openParen g outer),
      hrun, List.singleton_append, Reading.run_cons _ (Reading.step_closeParen g' g outer r'),
      hclose]
  | @conjunction tokens r _ ih =>
    intro beforeOr
    exact ⟨none, r, rfl, fun outer rest => ih ⟨beforeOr, none⟩ outer rest⟩
  | @and left right l r keyword _ hkeyword _ ihleft ihright =>
    intro beforeOr
    obtain ⟨beforeAnd, l', hconjoin, hrun⟩ := ihleft beforeOr
    refine ⟨some l, r, rfl, fun outer rest => ?_⟩
    rw [List.append_assoc, List.cons_append, hrun,
      Reading.run_cons _ (Reading.step_keyword _ outer l' hkeyword), Group.continueWith, hconjoin,
      ihright]
  | disjunction _ ih =>
    obtain ⟨beforeAnd, r', hconjoin, hrun⟩ := ih none
    exact ⟨⟨none, beforeAnd⟩, r', hconjoin, hrun⟩
  | @or left right l r keyword _ hkeyword _ ihleft ihright =>
    obtain ⟨g, l', hclose, hrun⟩ := ihleft
    obtain ⟨beforeAnd, r', hconjoin, hrunright⟩ := ihright (some l)
    refine ⟨⟨some l, beforeAnd⟩, r', ?_, fun outer rest => ?_⟩
    · show Rule.or l (Group.conjoin ⟨some l, beforeAnd⟩ r') = Rule.or l r
      rw [hconjoin]
    · rw [List.append_assoc, List.cons_append, hrun,
        Reading.run_cons _ (Reading.step_keyword g outer l' hkeyword), Group.continueWith, hclose,
        hrunright]

/-! ## What the reader has read is derived -/

/-- Whether tokens are a rule that waits for its right side, with the
connective it waits behind; without such a rule there are no tokens. -/
def Nonterminal.Waits (symbol : Nonterminal) (op : Connective) :
    Option Rule → List Token → Prop
  | none, tokens => tokens = []
  | some r, tokens => ∃ before keyword, tokens = before ++ [.word keyword]
      ∧ Text.sameIgnoringCase keyword op.render = true ∧ Derives symbol before r

/-- Whether tokens are what waits in a group. -/
def Group.Holds (g : Group) (tokens : List Token) : Prop :=
  ∃ disjunction conjunction, tokens = disjunction ++ conjunction
    ∧ Nonterminal.Waits .disjunction .or g.beforeOr disjunction
    ∧ Nonterminal.Waits .conjunction .and g.beforeAnd conjunction

namespace Group

theorem holds_empty : Group.Holds {} [] := ⟨[], [], rfl, rfl, rfl⟩

/-- A primary completes the conjunction that waits for it. -/
theorem derives_conjoin {g : Group} {waiting tokens : List Token} {r : Rule}
    (hwaits : Nonterminal.Waits .conjunction .and g.beforeAnd waiting)
    (h : Derives .primary tokens r) : Derives .conjunction (waiting ++ tokens) (g.conjoin r) := by
  unfold conjoin
  cases hg : g.beforeAnd with
  | none =>
    rw [hg] at hwaits
    obtain rfl : waiting = [] := hwaits
    exact .conjunction h
  | some l =>
    rw [hg] at hwaits
    obtain ⟨before, keyword, rfl, hkeyword, hleft⟩ := hwaits
    rw [List.append_assoc]
    exact .and hleft hkeyword h

/-- A primary completes the group that ends with it. -/
theorem derives_close {g : Group} {waiting tokens : List Token} {r : Rule}
    (hg : g.Holds waiting) (h : Derives .primary tokens r) :
    Derives .disjunction (waiting ++ tokens) (g.close r) := by
  obtain ⟨disjunction, conjunction, rfl, hor, hand⟩ := hg
  have hconjoin := derives_conjoin hand h
  unfold close
  cases hbefore : g.beforeOr with
  | none =>
    rw [hbefore] at hor
    obtain rfl : disjunction = [] := hor
    exact .disjunction hconjoin
  | some l =>
    rw [hbefore] at hor
    obtain ⟨before, keyword, rfl, hkeyword, hleft⟩ := hor
    rw [List.append_assoc, List.append_assoc]
    exact .or hleft hkeyword hconjoin

/-- After a connective the primary before it waits in the group. -/
theorem Holds.continueWith {g : Group} {waiting tokens : List Token} {r : Rule} {op : Connective}
    {keyword : Text} (hg : g.Holds waiting) (h : Derives .primary tokens r)
    (hkeyword : Text.sameIgnoringCase keyword op.render = true) :
    (g.continueWith r op).Holds (waiting ++ tokens ++ [.word keyword]) := by
  cases op with
  | or =>
    have hclosed := derives_close hg h
    exact ⟨_, [], (List.append_nil _).symm, ⟨_, keyword, rfl, hkeyword, hclosed⟩, rfl⟩
  | and =>
    obtain ⟨disjunction, conjunction, rfl, hor, hand⟩ := hg
    refine ⟨disjunction, _, ?_, hor, ⟨_, keyword, rfl, hkeyword, derives_conjoin hand h⟩⟩
    simp only [List.append_assoc]

end Group

/-- Whether tokens are what waits in the groups around the innermost one, each
with the parenthesis that opened the next. -/
def Group.OpenAround : List Group → List Token → Prop
  | [], tokens => tokens = []
  | g :: outer, tokens => ∃ before waiting, tokens = before ++ (waiting ++ [.openParen])
      ∧ OpenAround outer before ∧ g.Holds waiting

/-- Whether tokens are what has been read of the rule at hand. -/
def Place.Holds : Place → List Token → Prop
  | .start, tokens => tokens = []
  | .afterField field, tokens => tokens = [.word field]
  | .afterComparator field c, tokens => tokens = [.word field, .word c.render]
  | .afterRule r, tokens => Derives .primary tokens r

namespace Reading

/-- **What the state of the reader has made of the tokens so far**: the groups
around the innermost one, what waits in that one, and the rule at hand. -/
def Holds (s : Reading) (tokens : List Token) : Prop :=
  ∃ around waiting current, tokens = around ++ (waiting ++ current)
    ∧ Group.OpenAround s.outer around ∧ s.group.Holds waiting ∧ s.place.Holds current

theorem holds_empty : Reading.Holds {} [] :=
  ⟨[], [], [], rfl, rfl, Group.holds_empty, rfl⟩

/-- A token after a complete rule. -/
theorem Holds.continueRule {s next : Reading} {tokens current : List Token} {token : Token}
    {r : Rule} {around waiting : List Token} (htokens : tokens = around ++ (waiting ++ current))
    (haround : Group.OpenAround s.outer around) (hgroup : s.group.Holds waiting)
    (hcurrent : Derives .primary current r) (h : s.continueRule r token = .ok next) :
    next.Holds (tokens ++ [token]) := by
  subst htokens
  unfold Reading.continueRule at h
  cases hop : Connective.ofToken? token with
  | some op =>
    rw [hop] at h
    obtain rfl := Except.ok.inj h
    obtain ⟨keyword, rfl, hkeyword⟩ := Connective.ofToken?_eq_some_iff.1 hop
    refine ⟨around, _, [], ?_, haround, hgroup.continueWith hcurrent hkeyword, rfl⟩
    simp only [List.append_assoc, List.append_nil]
  | none =>
    rw [hop] at h
    cases houter : s.outer with
    | nil =>
      rw [houter] at h
      cases token <;> exact absurd h (by simp)
    | cons g outer =>
      rw [houter] at h haround
      obtain ⟨before, waiting', rfl, hbefore, hg⟩ := haround
      cases token with
      | closeParen =>
        obtain rfl := Except.ok.inj h
        refine ⟨before, waiting', _, ?_, hbefore, hg, .group (Group.derives_close hgroup hcurrent)⟩
        simp only [List.append_assoc, List.cons_append, List.nil_append]
      | word t => exact absurd h (by simp)
      | quoted t => exact absurd h (by simp)
      | openParen => exact absurd h (by simp)

/-- **Every token keeps the account of what has been read.** -/
theorem Holds.step {s next : Reading} {tokens : List Token} {token : Token} (hs : s.Holds tokens)
    (h : s.step token = .ok next) : next.Holds (tokens ++ [token]) := by
  obtain ⟨around, waiting, current, htokens, haround, hgroup, hcurrent⟩ := hs
  unfold Reading.step at h
  cases hplace : s.place with
  | start =>
    rw [hplace] at h hcurrent
    obtain rfl : current = [] := hcurrent
    subst htokens
    by_cases hopen : token = .openParen
    · simp only [hopen, if_pos] at h
      obtain rfl := Except.ok.inj h
      refine ⟨_, [], [], ?_, ⟨around, waiting, rfl, haround, hgroup⟩, Group.holds_empty, rfl⟩
      simp [hopen]
    · simp only [hopen, if_false] at h
      obtain ⟨field, hfield, hnext⟩ := bind_eq_ok_iff.1 h
      obtain rfl := Except.ok.inj hnext
      obtain rfl := Token.asField_eq_ok_iff.1 hfield
      refine ⟨around, waiting, _, ?_, haround, hgroup, rfl⟩
      simp only [List.append_assoc, List.append_nil]
  | afterField field =>
    rw [hplace] at h hcurrent
    obtain rfl : current = [.word field] := hcurrent
    obtain ⟨c, hc, hnext⟩ := bind_eq_ok_iff.1 h
    obtain rfl := Except.ok.inj hnext
    obtain rfl := Token.asComparator_eq_ok_iff.1 hc
    subst htokens
    refine ⟨around, waiting, _, ?_, haround, hgroup, rfl⟩
    simp only [List.append_assoc, List.singleton_append]
  | afterComparator field c =>
    rw [hplace] at h hcurrent
    obtain rfl : current = [.word field, .word c.render] := hcurrent
    obtain ⟨l, hl, hnext⟩ := bind_eq_ok_iff.1 h
    obtain rfl := Except.ok.inj hnext
    have hspelled : (⟨field, c, l⟩ : Condition).SpelledBy [.word field, .word c.render, token] :=
      ⟨token, rfl, Token.asLiteral_eq_ok_iff.1 hl⟩
    subst htokens
    refine ⟨around, waiting, _, ?_, haround, hgroup, .primary (.predicate hspelled)⟩
    simp only [List.append_assoc, List.cons_append, List.nil_append]
  | afterRule r =>
    rw [hplace] at h hcurrent
    exact Holds.continueRule htokens haround hgroup hcurrent h

/-- At the end of the tokens the rule that has been read is derived. -/
theorem Holds.derives_of_finish {s : Reading} {tokens : List Token} {r : Rule}
    (hs : s.Holds tokens) (h : s.finish = .ok r) : Derives .disjunction tokens r := by
  obtain ⟨around, waiting, current, rfl, haround, hgroup, hcurrent⟩ := hs
  unfold finish at h
  cases hplace : s.place with
  | start => simp [hplace] at h
  | afterField field => simp [hplace] at h
  | afterComparator field c => simp [hplace] at h
  | afterRule r' =>
    rw [hplace] at h hcurrent
    by_cases houter : s.outer = []
    · simp only [houter, if_pos] at h
      obtain rfl := Except.ok.inj h
      rw [houter] at haround
      obtain rfl : around = [] := haround
      show Derives .disjunction (waiting ++ current) (s.group.close r')
      exact Group.derives_close hgroup hcurrent
    · simp [houter] at h

/-- **Whatever the reader accepts is derived.** -/
theorem derives_of_run {s : Reading} {before tokens : List Token} {r : Rule} (hs : s.Holds before)
    (h : s.run tokens = .ok r) : Derives .disjunction (before ++ tokens) r := by
  induction tokens generalizing s before with
  | nil =>
    rw [List.append_nil]
    exact hs.derives_of_finish h
  | cons token tokens ih =>
    rw [run] at h
    obtain ⟨next, hstep, hrun⟩ := bind_eq_ok_iff.1 h
    have hnext := ih (hs.step hstep) hrun
    rwa [List.append_assoc] at hnext

end Reading

/-! ## The rules of the grammar -/

/-- No nonterminal derives an empty sequence of tokens. -/
theorem Derives.ne_nil {symbol : Nonterminal} {tokens : List Token} {r : Rule}
    (h : Derives symbol tokens r) : tokens ≠ [] := by
  induction h with
  | predicate hc =>
    obtain ⟨token, rfl, -⟩ := hc
    simp
  | primary _ ih => exact ih
  | group _ _ => simp
  | conjunction _ ih => exact ih
  | and _ _ _ _ _ => simp
  | disjunction _ ih => exact ih
  | or _ _ _ _ _ => simp

/-- **A sequence of tokens is read as a rule exactly where the grammar derives
that rule.** -/
theorem Rule.ofTokens_eq_ok_iff {tokens : List Token} {r : Rule} :
    Rule.ofTokens tokens = .ok r ↔ Derives .disjunction tokens r := by
  unfold Rule.ofTokens
  constructor
  · intro h
    split at h
    · exact absurd h (by simp)
    · exact Reading.derives_of_run Reading.holds_empty h
  · intro h
    rw [if_neg h.ne_nil]
    obtain ⟨g, r', hclose, hrun⟩ := h.follows
    have hend := hrun [] []
    rw [List.append_nil] at hend
    rw [hend, ← hclose]
    rfl

/-- **The grammar is unambiguous.** -/
theorem Derives.unique {tokens : List Token} {r r' : Rule} (h : Derives .disjunction tokens r)
    (h' : Derives .disjunction tokens r') : r = r' :=
  Except.ok.inj ((Rule.ofTokens_eq_ok_iff.2 h).symm.trans (Rule.ofTokens_eq_ok_iff.2 h'))

/-- **Every condition of a derived rule is spelled by three successive
tokens.** -/
theorem Derives.spelledIn {symbol : Nonterminal} {tokens : List Token} {r : Rule}
    (h : Derives symbol tokens r) {c : Condition} (hc : c ∈ r.conditions) : c.SpelledIn tokens := by
  induction h with
  | predicate hspelled =>
    rw [Rule.conditions_operand, List.mem_singleton] at hc
    rw [hc]
    exact hspelled.spelledIn
  | primary _ ih => exact ih hc
  | group _ ih => exact ((ih hc).append_right _).append_left [.openParen]
  | conjunction _ ih => exact ih hc
  | and _ _ _ ihleft ihright =>
    rcases List.mem_append.1 hc with hl | hr
    · exact (ihleft hl).append_right _
    · exact ((ihright hr).append_left [_]).append_left _
  | disjunction _ ih => exact ih hc
  | or _ _ _ ihleft ihright =>
    rcases List.mem_append.1 hc with hl | hr
    · exact (ihleft hl).append_right _
    · exact ((ihright hr).append_left [_]).append_left _

/-- **The nested grammar, and nothing else, is accepted.** A text is read as
a rule exactly where its tokens derive that rule; no sequence of tokens
derives two rules; and a text whose tokens derive none is malformed, the text
without tokens being the empty rule. -/
theorem Dialect.parse_nested_iff (policy : TrailingPolicy) :
    (∀ t r, Dialect.parse ⟨.nested, policy⟩ t = .ok r ↔ Derives .disjunction (Token.ofText t) r)
      ∧ (∀ tokens r r', Derives .disjunction tokens r → Derives .disjunction tokens r' → r = r')
      ∧ (∀ t, (∀ r, ¬ Derives .disjunction (Token.ofText t) r) →
          ∃ e : Malformed, Dialect.parse ⟨.nested, policy⟩ t = .error e)
      ∧ (∀ t, Token.ofText t = [] → Dialect.parse ⟨.nested, policy⟩ t = .error .emptyRule) := by
  have hparse : ∀ t r, Dialect.parse ⟨.nested, policy⟩ t = .ok r
      ↔ Derives .disjunction (Token.ofText t) r := fun t r => Rule.ofTokens_eq_ok_iff
  refine ⟨hparse, fun tokens r r' => Derives.unique, fun t hnone => ?_, fun t hempty => ?_⟩
  · cases h : Dialect.parse ⟨.nested, policy⟩ t with
    | ok r => exact absurd ((hparse t r).1 h) (hnone r)
    | error e => exact ⟨e, rfl⟩
  · show Rule.ofTokens (Token.ofText t) = .error .emptyRule
    rw [hempty]
    rfl

/-- In operator position AND binds more closely than OR, a keyword may be the
name of a field, a connective without a right side is malformed, and the empty
text is the empty rule. -/
theorem Dialect.parse_nested_precedence :
    Derives .disjunction (Token.ofText "and = 1 Or (b > 2) aND c < 'x'".toList)
        (.or (.operand ⟨"and".toList, .equal, .bare "1".toList⟩)
          (.and (.operand ⟨"b".toList, .greater, .bare "2".toList⟩)
            (.operand ⟨"c".toList, .less, .quoted "x".toList⟩)))
      ∧ (∀ r, ¬ Derives .disjunction (Token.ofText "a = 1 OR".toList) r)
      ∧ Dialect.parse {} [] = .error .emptyRule := by
  obtain ⟨hparse, -, -, hempty⟩ := Dialect.parse_nested_iff .ignore
  refine ⟨(hparse _ _).1 (toOption_eq_some_iff.1 ?_), fun r hr => ?_, hempty [] Token.ofText_nil⟩
  · decide +kernel
  · have hok := toOption_eq_some_iff.2 ((hparse _ r).2 hr)
    have herror : (Dialect.parse {} "a = 1 OR".toList).toOption = none := by decide +kernel
    exact absurd (herror.symm.trans hok) (by simp)

end AttributeRules
