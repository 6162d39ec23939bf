import AttributeRules.Proofs.Rule.Constructible

/-!
# Faults of stored nodes

What can be wrong with a stored node is wrong at one of its positions, that is
with the node itself or with a node somewhere below it. A position has at most
one fault of its own, which depends on its kind, its value and which of its
children are there, but not on what these children are
(`StoredNode.HasFault`).

Reading a node fails exactly if some position is faulty, and what it then
reports is the fault of the first faulty position in preorder: a node comes
before its children and everything below the left child before everything
below the right one (`StoredNode.toRule_eq_error_iff_firstFault`). The
children of an operand are positions too, but no fault of theirs is ever
reported, for the operand that has them is itself faulty and comes first.
-/

namespace AttributeRules

namespace StoredNode

/-! ## Positions and their faults -/

/-- **The positions of a node in preorder**: the node itself, those of its left
child, those of its right child. -/
def positions : StoredNode → List StoredNode
  | ⟨kind, value, left, right⟩ =>
    ⟨kind, value, left, right⟩ ::
      ((match left with | none => [] | some n => n.positions)
        ++ (match right with | none => [] | some n => n.positions))

theorem positions_operator (value : Text) (left right : StoredNode) :
    positions ⟨.operator, value, some left, some right⟩
      = ⟨.operator, value, some left, some right⟩ :: (left.positions ++ right.positions) := rfl

/-- The first position of a node is the node itself. -/
theorem exists_positions_eq_cons (n : StoredNode) : ∃ below, n.positions = n :: below := by
  obtain ⟨kind, value, left, right⟩ := n
  cases left <;> cases right <;> exact ⟨_, rfl⟩

/-- **The fault that a position has of its own.** -/
inductive HasFault : StoredNode → StorageFault → Prop
  /-- An operand has a child. -/
  | childrenOfOperand {value : Text} {left right : Option StoredNode}
      (h : left ≠ none ∨ right ≠ none) :
      HasFault ⟨.operand, value, left, right⟩ (.childrenOfOperand value)
  /-- An operand without children is no condition. -/
  | invalidCondition {value : Text} {cause : Malformed}
      (h : Condition.parse value = .error cause) :
      HasFault ⟨.operand, value, none, none⟩ (.invalidCondition cause)
  /-- An operator is no connective, in letters of either case. -/
  | unknownConnective {value : Text} {left right : Option StoredNode}
      (h : ∀ op : Connective, Text.sameIgnoringCase value op.render = false) :
      HasFault ⟨.operator, value, left, right⟩ (.unknownConnective value)
  /-- A connective has no left child. -/
  | leftMissing {value : Text} {op : Connective} {right : Option StoredNode}
      (h : Text.sameIgnoringCase value op.render = true) :
      HasFault ⟨.operator, value, none, right⟩ (.childMissing value .left)
  /-- A connective has a left child but no right one. -/
  | rightMissing {value : Text} {op : Connective} {left : StoredNode}
      (h : Text.sameIgnoringCase value op.render = true) :
      HasFault ⟨.operator, value, some left, none⟩ (.childMissing value .right)

/-- Whether a position has no fault of its own. -/
def Faultless (n : StoredNode) : Prop := ∀ e, ¬ n.HasFault e

/-- **The first of several positions that is faulty has a given fault.** -/
inductive FirstFault : List StoredNode → StorageFault → Prop
  /-- The position at hand is faulty. -/
  | here {n : StoredNode} {e : StorageFault} {later : List StoredNode} (h : n.HasFault e) :
      FirstFault (n :: later) e
  /-- The position at hand is faultless, and the first fault is a later one. -/
  | later {n : StoredNode} {e : StorageFault} {later : List StoredNode} (hn : n.Faultless)
      (h : FirstFault later e) : FirstFault (n :: later) e

/-! ## At most one fault is the first -/

/-- A position has at most one fault of its own. -/
theorem HasFault.unique {n : StoredNode} {e e' : StorageFault} (h : n.HasFault e)
    (h' : n.HasFault e') : e = e' := by
  cases h with
  | childrenOfOperand h =>
    cases h' with
    | childrenOfOperand _ => rfl
    | invalidCondition _ => exact absurd h (by simp)
  | invalidCondition h =>
    cases h' with
    | childrenOfOperand h' => exact absurd h' (by simp)
    | invalidCondition h' => rw [Except.error.inj (h.symm.trans h')]
  | unknownConnective h =>
    cases h' with
    | unknownConnective _ => rfl
    | leftMissing h' => exact absurd h' (by simp [h])
    | rightMissing h' => exact absurd h' (by simp [h])
  | leftMissing h =>
    cases h' with
    | unknownConnective h' => exact absurd h (by simp [h'])
    | leftMissing _ => rfl
  | rightMissing h =>
    cases h' with
    | unknownConnective h' => exact absurd h (by simp [h'])
    | rightMissing _ => rfl

theorem FirstFault.unique {ps : List StoredNode} {e e' : StorageFault} (h : FirstFault ps e)
    (h' : FirstFault ps e') : e = e' := by
  induction h with
  | here h =>
    cases h' with
    | here h' => exact h.unique h'
    | later hn _ => exact absurd h (hn _)
  | later hn _ ih =>
    cases h' with
    | here h' => exact absurd h' (hn _)
    | later _ h' => exact ih h'

/-- If some position is the first faulty one, not all are faultless. -/
theorem FirstFault.not_faultless {ps : List StoredNode} {e : StorageFault} (h : FirstFault ps e) :
    ¬ ∀ n ∈ ps, n.Faultless := by
  intro hps
  induction h with
  | here h => exact hps _ (List.mem_cons_self ..) _ h
  | later _ _ ih => exact ih (List.forall_mem_cons.1 hps).2

/-- The first fault stays the first when further positions follow. -/
theorem FirstFault.append_right {ps : List StoredNode} {e : StorageFault} (h : FirstFault ps e)
    (qs : List StoredNode) : FirstFault (ps ++ qs) e := by
  induction h with
  | here h => exact .here h
  | later hn _ ih => exact .later hn ih

/-- The first fault stays the first behind faultless positions. -/
theorem FirstFault.append_left {ps qs : List StoredNode} {e : StorageFault}
    (hps : ∀ n ∈ ps, n.Faultless) (h : FirstFault qs e) : FirstFault (ps ++ qs) e := by
  induction ps with
  | nil => exact h
  | cons n ps ih =>
    obtain ⟨hn, hps⟩ := List.forall_mem_cons.1 hps
    exact .later hn (ih hps)

/-! ## Reading a node -/

/-- A text that is no connective differs from both in more than the case of
its letters. -/
theorem sameIgnoringCase_of_ofText?_eq_none {t : Text} (h : Connective.ofText? t = none)
    (op : Connective) : Text.sameIgnoringCase t op.render = false := by
  rw [Bool.eq_false_iff]
  intro hsame
  exact absurd (h.symm.trans (Connective.ofText?_eq_some_iff.2 hsame)) (by simp)

/-- A connective with two children has no fault of its own. -/
theorem faultless_operator {value : Text} {op : Connective}
    (hop : Connective.ofText? value = some op) (left right : StoredNode) :
    Faultless ⟨.operator, value, some left, some right⟩ := by
  intro e he
  cases he with
  | unknownConnective h =>
    exact absurd (Connective.ofText?_eq_some_iff.1 hop) (by simp [h])

/-- A condition without children has no fault of its own. -/
theorem faultless_operand {value : Text} {c : Condition} (hc : Condition.parse value = .ok c) :
    Faultless ⟨.operand, value, none, none⟩ := by
  intro e he
  cases he with
  | childrenOfOperand h => exact absurd h (by simp)
  | invalidCondition h => exact absurd (hc.symm.trans h) (by simp)

/-- If a node has a fault of its own, that is the first one. -/
theorem HasFault.firstFault {n : StoredNode} {e : StorageFault} (h : n.HasFault e) :
    FirstFault n.positions e := by
  obtain ⟨below, hbelow⟩ := n.exists_positions_eq_cons
  rw [hbelow]
  exact .here h

/-- **A node is read or has a first fault.** Where it is read, all of its
positions are faultless; where it has a first fault, that is what is
reported. -/
theorem toRule_cases (n : StoredNode) :
    (∃ r, n.toRule = .ok r ∧ ∀ p ∈ n.positions, p.Faultless)
      ∨ ∃ e, n.toRule = .error e ∧ FirstFault n.positions e := by
  fun_induction toRule n with
  | case1 value c hparse =>
    exact .inl ⟨_, rfl, List.forall_mem_singleton.2 (faultless_operand hparse)⟩
  | case2 value e hparse =>
    exact .inr ⟨_, rfl, (HasFault.invalidCondition hparse).firstFault⟩
  | case3 value left right hchildren =>
    have hsome : left ≠ none ∨ right ≠ none :=
      Classical.not_and_iff_not_or_not.1 fun hnone => hchildren hnone.1 hnone.2
    exact .inr ⟨_, rfl, (HasFault.childrenOfOperand hsome).firstFault⟩
  | case4 value left right hop =>
    have hnone := sameIgnoringCase_of_ofText?_eq_none hop
    exact .inr ⟨_, rfl, (HasFault.unknownConnective hnone).firstFault⟩
  | case5 value right op hop =>
    have hkeyword := Connective.ofText?_eq_some_iff.1 hop
    exact .inr ⟨_, rfl, (HasFault.leftMissing hkeyword).firstFault⟩
  | case6 value op hop left =>
    have hkeyword := Connective.ofText?_eq_some_iff.1 hop
    exact .inr ⟨_, rfl, (HasFault.rightMissing hkeyword).firstFault⟩
  | case7 value op hop left right ihleft ihright =>
    have hn := faultless_operator hop left right
    rw [positions_operator]
    -- the left child is read before the right one, and its positions come before
    obtain ⟨l, hl, hleft⟩ | ⟨e, hl, hleft⟩ := ihleft
    · obtain ⟨r, hr, hright⟩ | ⟨e, hr, hright⟩ := ihright
      · refine .inl ⟨.branch op l r, ?_, ?_⟩
        · rw [hl, hr]
          rfl
        · exact List.forall_mem_cons.2 ⟨hn, List.forall_mem_append.2 ⟨hleft, hright⟩⟩
      · refine .inr ⟨e, ?_, .later hn (hright.append_left hleft)⟩
        rw [hl, hr]
        rfl
    · refine .inr ⟨e, ?_, .later hn (hleft.append_right _)⟩
      rw [hl]
      rfl

/-- **A stored node is a rule exactly where no position is faulty, and
otherwise the first faulty position in preorder is reported.** -/
theorem toRule_eq_error_iff_firstFault (n : StoredNode) :
    ((∃ r, n.toRule = .ok r) ↔ ∀ p ∈ n.positions, p.Faultless)
      ∧ ∀ e, n.toRule = .error e ↔ FirstFault n.positions e := by
  obtain ⟨r, hr, hfaultless⟩ | ⟨e, he, hfirst⟩ := n.toRule_cases
  · refine ⟨iff_of_true ⟨r, hr⟩ hfaultless, fun e => iff_of_false ?_ ?_⟩
    · rw [hr]
      exact fun h => nomatch h
    · exact fun h => h.not_faultless hfaultless
  · refine ⟨iff_of_false ?_ hfirst.not_faultless, fun e' => ⟨fun h => ?_, fun h => ?_⟩⟩
    · rintro ⟨r, hr⟩
      exact absurd (he.symm.trans hr) (by simp)
    · exact Except.error.inj (he.symm.trans h) ▸ hfirst
    · rw [he, hfirst.unique h]

end StoredNode

end AttributeRules
