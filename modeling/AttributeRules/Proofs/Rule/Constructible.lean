import AttributeRules.Proofs.Rule.Flat
import AttributeRules.Proofs.Rule.Combination
import AttributeRules.Stored.Rule

/-!
# The rules that can be made

A rule is never put together from arbitrary parts. `Rule.Constructible` lists
the ways there are: reading a text in either grammar, reading a condition,
making a condition by hand from a literal that was itself made, joining and
combining rules, and reading what was stored.

Some of these ways check that what they make reads back and others do not. All
the same there is one invariant that all of them keep, `Rule.Storable`: every
condition of the rule comes back from its own text. Makers of trees keep it
because they only rearrange conditions, makers of single conditions because
they check it, and the two readers of longer texts because of where the tokens
of a condition stand in such a text (`Condition.readsBack_of_ofText`).
-/

namespace AttributeRules

/-! ## Ways to make a rule -/

/-- The literals that can be made. -/
inductive Literal.Constructible : Literal → Prop
  /-- The literal of an integer. -/
  | ofInt64 (n : Int64) : Constructible (Literal.ofInt64 n)
  /-- The literal that stands for a text. -/
  | ofText {t : Text} {l : Literal} (h : Literal.ofText t = .ok l) : Constructible l
  /-- The quoted literal that stands for a text. -/
  | quote {t : Text} {l : Literal} (h : Literal.quote t = .ok l) : Constructible l
  /-- A literal that is read. -/
  | parse {t : Text} {l : Literal} (h : Literal.parse t = .ok l) : Constructible l

/-- **The rules that can be made.** -/
inductive Rule.Constructible : Rule → Prop
  /-- A rule is read from a text, in either grammar and with either policy for
  trailing words. -/
  | parse {d : Dialect} {t : Text} {r : Rule} (h : d.parse t = .ok r) : Constructible r
  /-- A condition is read from a text. -/
  | condition {t : Text} {c : Condition} (h : Condition.parse t = .ok c) :
      Constructible (.operand c)
  /-- A condition is put together by hand. -/
  | build {field : Text} {comparator : Comparator} {l : Literal} {c : Condition}
      (hl : l.Constructible) (h : Condition.build field comparator l = .ok c) :
      Constructible (.operand c)
  /-- Two rules are joined. -/
  | branch {op : Connective} {left right : Rule} (hleft : Constructible left)
      (hright : Constructible right) : Constructible (.branch op left right)
  /-- Several rules are combined. -/
  | combine {rs : List Rule} {r : Rule} (hrs : ∀ r ∈ rs, Constructible r)
      (h : Rule.combine? rs = some r) : Constructible r
  /-- A rule is read from stored nodes. -/
  | stored {n : StoredNode} {r : Rule} (h : n.toRule = .ok r) : Constructible r
  /-- A rule is read from a JSON value. -/
  | json {j : Json} {r : Rule} (h : Rule.ofJson j = .ok r) : Constructible r

/-! ## What all of them keep -/

namespace Rule

/-- Whether every condition of a rule comes back from its own text. -/
def Storable (r : Rule) : Prop := ∀ c ∈ r.conditions, c.ReadsBack

instance (r : Rule) : Decidable r.Storable :=
  inferInstanceAs (Decidable (∀ c ∈ r.conditions, c.ReadsBack))

theorem storable_operand_iff {c : Condition} : (operand c).Storable ↔ c.ReadsBack := by
  unfold Storable
  rw [conditions_operand]
  exact List.forall_mem_singleton

theorem storable_branch_iff {op : Connective} {left right : Rule} :
    (branch op left right).Storable ↔ left.Storable ∧ right.Storable := by
  unfold Storable
  rw [conditions_branch]
  exact List.forall_mem_append

/-- Every rule of the nested grammar can be stored. -/
theorem storable_of_parse {t : Text} {r : Rule} (h : Rule.parse t = .ok r) : r.Storable :=
  fun _ hc => Condition.readsBack_of_ofText ((ofTokens_eq_ok_iff.1 h).spelledIn hc)

/-- Every rule of the flat grammar can be stored. -/
theorem storable_of_parseFlat {policy : TrailingPolicy} {t : Text} {r : Rule}
    (h : Rule.parseFlat policy t = .ok r) : r.Storable := by
  obtain ⟨left, op, keyword, right, trailing, -, -, hleft, hright, -, rfl⟩ :=
    (ofWords_eq_ok_iff fun _ => Text.isRun_of_mem_words).1 h
  rw [storable_branch_iff, storable_operand_iff, storable_operand_iff]
  exact ⟨hleft, hright⟩

/-- What stored nodes are read as can be stored. -/
theorem storable_of_toRule {n : StoredNode} {r : Rule} (h : n.toRule = .ok r) : r.Storable := by
  fun_induction StoredNode.toRule n generalizing r with
  | case1 value c hparse =>
    obtain rfl := Except.ok.inj h
    exact storable_operand_iff.2 (Condition.readsBack_of_parse hparse)
  | case2 value e hparse => exact absurd h (by simp)
  | case3 value left right hchildren => exact absurd h (by simp)
  | case4 value left right hop => exact absurd h (by simp)
  | case5 value op hop right => exact absurd h (by simp)
  | case6 value op hop left => exact absurd h (by simp)
  | case7 value op hop left right ihleft ihright =>
    obtain ⟨l, hl, h⟩ := bind_eq_ok_iff.1 h
    obtain ⟨r', hr, h⟩ := bind_eq_ok_iff.1 h
    obtain rfl := Except.ok.inj h
    exact storable_branch_iff.2 ⟨ihleft hl, ihright hr⟩

/-- A JSON value is read as what its nodes are read as. -/
theorem exists_toRule_of_ofJson {j : Json} {r : Rule} (h : Rule.ofJson j = .ok r) :
    ∃ n : StoredNode, n.toRule = .ok r := by
  unfold Rule.ofJson at h
  split at h
  · exact absurd h (by simp)
  · next n _ =>
    split at h
    · exact absurd h (by simp)
    · next r' hr =>
      obtain rfl := Except.ok.inj h
      exact ⟨n, hr⟩

/-- **Every rule that can be made can be stored.** -/
theorem Constructible.storable {r : Rule} (h : r.Constructible) : r.Storable := by
  induction h with
  | @parse d t r h =>
    unfold Dialect.parse at h
    split at h
    · exact storable_of_parse h
    · exact storable_of_parseFlat h
  | condition h => exact storable_operand_iff.2 (Condition.readsBack_of_parse h)
  | build _ h => exact storable_operand_iff.2 (Condition.build_eq_ok_iff.1 h).2
  | branch _ _ ihleft ihright => exact storable_branch_iff.2 ⟨ihleft, ihright⟩
  | combine _ h ih =>
    intro c hc
    rw [conditions_combine? h] at hc
    obtain ⟨r', hr', hc'⟩ := List.mem_flatMap.1 hc
    exact ih r' hr' c hc'
  | stored h => exact storable_of_toRule h
  | json h =>
    obtain ⟨n, hn⟩ := exists_toRule_of_ofJson h
    exact storable_of_toRule hn

end Rule

end AttributeRules
