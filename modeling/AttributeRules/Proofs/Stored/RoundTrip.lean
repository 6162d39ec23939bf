import AttributeRules.Proofs.Rule.Constructible

/-!
# Storing rules and reading them back

A rule that can be stored comes back from its nodes
(`StoredNode.toRule_ofRule`): a connective is written in the capitals it is
read from, and a condition as the text it comes back from. Nodes in turn come
back from their JSON value, which has the members of every node in the order
of their names (`StoredNode.ofJson_toValue`). Neither depends on how deep the
rule is or on what its texts hold.
-/

namespace AttributeRules

namespace StoredNode

/-- **A rule that can be stored comes back from its nodes.** -/
theorem toRule_ofRule {r : Rule} (h : r.Storable) : (ofRule r).toRule = .ok r := by
  induction r with
  | operand c =>
    have hparse := (Rule.storable_operand_iff.1 h).parse_render
    rw [ofRule, toRule, hparse]
  | branch op left right ihleft ihright =>
    obtain ⟨hleft, hright⟩ := Rule.storable_branch_iff.1 h
    rw [ofRule, toRule, Connective.ofText?_render]
    show (do
      let left ← (ofRule left).toRule
      let right ← (ofRule right).toRule
      return Rule.branch op left right) = _
    rw [ihleft hleft, ihright hright]
    rfl

/-! ## Nodes as JSON values -/

/-- **Induction over nodes** and, with them, over the places where a node has
a child or none. -/
@[elab_as_elim]
theorem children_induction {P : StoredNode → Prop} {Q : Option StoredNode → Prop}
    (absent : Q none) (present : ∀ n, P n → Q (some n))
    (node : ∀ kind value left right, Q left → Q right → P ⟨kind, value, left, right⟩)
    (n : StoredNode) : P n := by
  obtain ⟨kind, value, left, right⟩ := n
  refine node kind value left right ?_ ?_
  · cases left with
    | none => exact absent
    | some n => exact present n (children_induction absent present node n)
  · cases right with
    | none => exact absent
    | some n => exact present n (children_induction absent present node n)

/-- The value of a child: the value of a node, or `null` where there is no
child. -/
def childValue : Option StoredNode → Json
  | none => .null
  | some n => n.toValue

/-- The members of a decoded node, in the order of their names. -/
theorem toValue_eq (n : StoredNode) :
    n.toValue = .object
      [(Member.left.name, childValue n.left), (Member.kind.name, .string n.kind.name),
        (Member.right.name, childValue n.right), (Member.value.name, .string n.value)] := by
  obtain ⟨kind, value, left, right⟩ := n
  cases left <;> cases right <;> rfl

/-- No node has the value that stands for no child. -/
theorem isNull_toValue (n : StoredNode) : n.toValue.isNull = false := by
  rw [toValue_eq]
  rfl

theorem asChoice_kindName (kind : NodeKind) :
    (Json.string kind.name).asChoice kindChoices = .ok kind := by
  cases kind <;> rfl

/-- Every member is meant by its own name. -/
@[simp] theorem Member.ofName?_name (m : Member) : Member.ofName? m.name = some m := by
  cases m <;> rfl

/-! Each member fills in its part of the node, a child provided that the node
it is comes back. -/

theorem ofMembers_kind (kind : NodeKind) {members : List (Text × Json)} {parts : Parts}
    (h : ofMembers members = .ok parts) :
    ofMembers ((Member.kind.name, .string kind.name) :: members)
      = .ok { parts with kind := kind } := by
  rw [ofMembers, Member.ofName?_name]
  simp only [asChoice_kindName, h]
  rfl

theorem ofMembers_value (value : Text) {members : List (Text × Json)} {parts : Parts}
    (h : ofMembers members = .ok parts) :
    ofMembers ((Member.value.name, .string value) :: members)
      = .ok { parts with value := value } := by
  rw [ofMembers, Member.ofName?_name]
  simp only [Json.asText, h]
  rfl

/-- Whether a child comes back from its value, `null` being no child. -/
def ComesBack (child : Option StoredNode) : Prop :=
  (if (childValue child).isNull then pure none else some <$> ofJson (childValue child)) = .ok child

/-- The member that holds the child on a side. -/
def Member.ofSide : Side → Member
  | .left => left
  | .right => right

/-- What has been read, with the child on a side filled in. -/
def Parts.withChild (parts : Parts) (child : Option StoredNode) : Side → Parts
  | .left => { parts with left := child }
  | .right => { parts with right := child }

/-- Both children are read alike, each before the members behind it. -/
theorem ofMembers_ofSide_cons (side : Side) (j : Json) (members : List (Text × Json)) :
    ofMembers (((Member.ofSide side).name, j) :: members)
      = (if j.isNull then pure none else some <$> ofJson j) >>= fun child =>
          (fun parts => parts.withChild child side) <$> ofMembers members := by
  rw [ofMembers, Member.ofName?_name]
  cases side <;> simp only [Member.ofSide] <;> cases j.isNull <;> rfl

theorem ofMembers_child (side : Side) {child : Option StoredNode} (hchild : ComesBack child)
    {members : List (Text × Json)} {parts : Parts} (h : ofMembers members = .ok parts) :
    ofMembers (((Member.ofSide side).name, childValue child) :: members)
      = .ok (parts.withChild child side) := by
  unfold ComesBack at hchild
  rw [ofMembers_ofSide_cons, hchild, h]
  rfl

/-- **A node comes back from its JSON value.** -/
theorem ofJson_toValue (n : StoredNode) : ofJson n.toValue = .ok n := by
  induction n using children_induction (Q := ComesBack) with
  | absent => rfl
  | present n ih =>
    show (if n.toValue.isNull then pure none else some <$> ofJson n.toValue) = .ok (some n)
    rw [isNull_toValue, ih]
    rfl
  | node kind value left right hleft hright =>
    have hmembers := ofMembers_child .left hleft <| ofMembers_kind kind <|
      ofMembers_child .right hright <| ofMembers_value value (show ofMembers [] = .ok {} from rfl)
    simp only [Member.ofSide] at hmembers
    rw [toValue_eq, ofJson, hmembers]
    rfl

end StoredNode

/-- **Every rule that can be made survives storage**, as nodes and as a JSON
value: it is read back as the same rule, each literal in the very spelling it
was written with. -/
theorem Rule.stored_roundTrip {r : Rule} (h : r.Constructible) :
    (StoredNode.ofRule r).toRule = .ok r ∧ Rule.ofJson r.toJson = .ok r := by
  have hnodes := StoredNode.toRule_ofRule h.storable
  refine ⟨hnodes, ?_⟩
  unfold ofJson toJson
  rw [StoredNode.ofJson_toValue]
  simp only [hnodes]

/-- A rule with a field that holds a quote, a quoted literal that holds one, a
word that leaves a parenthesis open and a number with leading zeros. -/
theorem Rule.stored_roundTrip_quotes :
    let r := Rule.and (.operand ⟨"it's".toList, .greater, .quoted "a'b c".toList⟩)
      (.operand ⟨"f(x".toList, .equal, .bare "007".toList⟩)
    r.Constructible ∧ (StoredNode.ofRule r).toRule = .ok r ∧ Rule.ofJson r.toJson = .ok r := by
  intro r
  have hr : r.Constructible := by
    have hparse : (Dialect.parse {} "it's > 'a'b c' AND f(x = 007".toList).toOption = some r := by
      decide +kernel
    exact .parse (toOption_eq_some_iff.1 hparse)
  exact ⟨hr, Rule.stored_roundTrip hr⟩

end AttributeRules
