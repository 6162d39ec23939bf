import AttributeRules.Proofs.Json.Documents
import AttributeRules.Proofs.Json.Lexing
import AttributeRules.Proofs.Stored.RoundTrip

/-!
# The JSON text of a rule, read back

The text of a node is cut into the lexemes of one document, the node's own
(`StoredNode.lexedAs_toText`), and the document is read from these. Nothing is
removed from it and no name is repeated in it, so what is left to decide is
whether it denotes a value. Each node puts one more object around those of its
children, and there is a limit to how many may stand inside one another. A node
therefore denotes its value exactly up to a height (`StoredNode.value?_document`),
and is read back exactly up to that height (`StoredNode.ofText?_toText`).

The nodes of a rule are as high as the rule. So a rule is read back from its
text up to a height of 127 and is refused from 128 on, whatever its fields and
literals hold (`Rule.ofJsonText_toJsonText`). A combination of many rules is
that high.
-/

namespace AttributeRules

namespace StoredNode

open Json Json.Lexeme

/-! ## The document of a node -/

/-- The document that is written of a node. -/
def document : StoredNode → Document
  | ⟨kind, value, left, right⟩ =>
    .object
      [(Spelling.ofText Member.kind.name, .string (Spelling.ofText kind.name)),
        (Spelling.ofText Member.value.name, .string (Spelling.ofText value)),
        (Spelling.ofText Member.left.name, match left with | none => .null | some n => n.document),
        (Spelling.ofText Member.right.name,
          match right with | none => .null | some n => n.document)]

/-- The document that is written of a child: that of a node, or `null` where
there is no child. -/
def childDocument : Option StoredNode → Document
  | none => .null
  | some n => n.document

theorem document_eq (kind : NodeKind) (value : Text) (left right : Option StoredNode) :
    document ⟨kind, value, left, right⟩ = .object
      [(Spelling.ofText Member.kind.name, .string (Spelling.ofText kind.name)),
        (Spelling.ofText Member.value.name, .string (Spelling.ofText value)),
        (Spelling.ofText Member.left.name, childDocument left),
        (Spelling.ofText Member.right.name, childDocument right)] := by
  cases left <;> cases right <;> rfl

/-- The JSON value that is written of a child. -/
def childJson : Option StoredNode → Json
  | none => .null
  | some n => n.toJson

theorem toJson_eq (kind : NodeKind) (value : Text) (left right : Option StoredNode) :
    toJson ⟨kind, value, left, right⟩ = .object
      [(Member.kind.name, .string kind.name), (Member.value.name, .string value),
        (Member.left.name, childJson left), (Member.right.name, childJson right)] := by
  cases left <;> cases right <;> rfl

/-- **The text of a node is cut into the lexemes of its document.** -/
theorem lexedAs_toText (n : StoredNode) : LexedAs n.toText n.document.lexemes := by
  induction n using children_induction
    (Q := fun child => LexedAs (childJson child).render (childDocument child).lexemes) with
  | absent => exact lexedAs_null
  | present n ih => exact ih
  | node kind value left right hleft hright =>
    have hmembers := lexedAs_intercalate
      (.cons (lexedAs_member (lexedAs_quote kind.name) Member.kind.name)
        (.cons (lexedAs_member (lexedAs_quote value) Member.value.name)
          (.cons (lexedAs_member hleft Member.left.name)
            (.cons (lexedAs_member hright Member.right.name) .nil))))
    unfold toText
    rw [toJson_eq, document_eq]
    exact lexedAs_object hmembers

/-- **The text of a node is read as its document.** -/
theorem documentOfText?_toText (n : StoredNode) : Document.ofText? n.toText = some n.document := by
  unfold Document.ofText?
  rw [(lexedAs_toText n).ofText?]
  exact Document.ofLexemes?_lexemes n.document

/-! ## What is made of the document -/

/-- Nothing is removed from the document of a node. -/
theorem relevant?_document (n : StoredNode) : relevant? n.document = some n.document := by
  induction n using children_induction
    (Q := fun child => relevant? (childDocument child) = some (childDocument child)) with
  | absent => rfl
  | present n ih => exact ih
  | node kind value left right hleft hright =>
    rw [document_eq, relevant?]
    simp only [relevantMembers?, Spelling.text?_ofText, Option.bind_eq_bind, Option.bind_some,
      Member.ofName?_name, hleft, hright]
    rfl

/-- No name is repeated in the document of a node. -/
theorem namesDistinct_document (n : StoredNode) : n.document.namesDistinct = true := by
  induction n using children_induction
    (Q := fun child => (childDocument child).namesDistinct = true) with
  | absent => rfl
  | present n ih => exact ih
  | node kind value left right hleft hright =>
    have hnames : [some Member.kind.name, some Member.value.name, some Member.left.name,
        some Member.right.name].Nodup := by decide
    rw [document_eq, Document.namesDistinct]
    simp only [Document.namesDistinctMembers, Document.namesDistinct, hleft, hright,
      List.map_cons, List.map_nil, Spelling.text?_ofText, hnames]
    rfl

/-! ## The value of the document -/

/-- The number of nodes on the longest way down. -/
def height : StoredNode → Nat
  | ⟨_, _, left, right⟩ =>
    1 + max (match left with | none => 0 | some n => n.height)
      (match right with | none => 0 | some n => n.height)

/-- The height of a child, none having no height. -/
def childHeight : Option StoredNode → Nat
  | none => 0
  | some n => n.height

theorem height_eq (kind : NodeKind) (value : Text) (left right : Option StoredNode) :
    height ⟨kind, value, left, right⟩ = 1 + max (childHeight left) (childHeight right) := by
  cases left <;> cases right <;> rfl

/-- **The document of a node denotes the value of the node exactly if there is
room for its height.** -/
theorem value?_document (n : StoredNode) (depth : Nat) :
    n.document.value? depth = if n.height ≤ depth then some n.toValue else none := by
  induction n using children_induction (Q := fun child => ∀ depth,
      (childDocument child).value? depth
        = if childHeight child ≤ depth then some (childValue child) else none)
    generalizing depth with
  | absent depth =>
    rw [childHeight, if_pos (Nat.zero_le depth)]
    rfl
  | present n ih depth => exact ih depth
  | node kind value left right hleft hright =>
    rw [document_eq, height_eq]
    cases depth with
    | zero => rw [Document.value?, if_neg (by omega)]
    | succ depth =>
      rw [Document.value?]
      simp only [Document.entries?, Document.value?, Spelling.text?_ofText, Option.map_some,
        Option.bind_eq_bind, Option.bind_some, hleft, hright]
      -- the object of the node has taken one of `depth + 1`, so both children have `depth`
      by_cases hfitsLeft : childHeight left ≤ depth
      · by_cases hfitsRight : childHeight right ≤ depth
        · have hheight : 1 + max (childHeight left) (childHeight right) ≤ depth + 1 := by omega
          rw [if_pos hfitsLeft, if_pos hfitsRight, if_pos hheight, toValue_eq]
          rfl
        · have hheight : ¬ 1 + max (childHeight left) (childHeight right) ≤ depth + 1 := by omega
          rw [if_pos hfitsLeft, if_neg hfitsRight, if_neg hheight]
          rfl
      · have hheight : ¬ 1 + max (childHeight left) (childHeight right) ≤ depth + 1 := by omega
        rw [if_neg hfitsLeft, if_neg hheight]
        rfl

/-- **A node is read back from its text exactly up to the height for which
there is room.** -/
theorem ofText?_toText (n : StoredNode) :
    StoredNode.ofText? n.toText = if n.height ≤ depthLimit then some n else none := by
  unfold StoredNode.ofText?
  rw [documentOfText?_toText]
  show (do
    let d ← relevant? n.document
    if d.namesDistinct then (ofJson (← d.value? depthLimit)).toOption else none) = _
  rw [relevant?_document]
  show (if n.document.namesDistinct then
    (do (ofJson (← n.document.value? depthLimit)).toOption) else none) = _
  rw [if_pos (namesDistinct_document n), value?_document]
  split
  · show (ofJson n.toValue).toOption = some n
    rw [ofJson_toValue]
    rfl
  · rfl

theorem height_ofRule (r : Rule) : (ofRule r).height = r.height := by
  induction r with
  | operand c => rfl
  | branch op left right ihleft ihright =>
    rw [ofRule, height_eq, Rule.height]
    show 1 + max (ofRule left).height (ofRule right).height = _
    rw [ihleft, ihright]

end StoredNode

namespace Rule

/-- **The exact rules that survive being stored as text**: a rule that can be
made is read back as itself if it is at most 127 high, and refused if it is
higher. -/
theorem ofJsonText_toJsonText {r : Rule} (h : r.Constructible) :
    Rule.ofJsonText r.toJsonText = if r.height ≤ 127 then .ok r else .error .jsonText := by
  unfold Rule.ofJsonText toJsonText
  rw [StoredNode.ofText?_toText, StoredNode.height_ofRule]
  show _ = if r.height ≤ Json.depthLimit then _ else _
  by_cases hheight : r.height ≤ Json.depthLimit
  · simp only [if_pos hheight, StoredNode.toRule_ofRule h.storable]
  · simp only [if_neg hheight]

/-- The combination of 127 conditions, whose texts hold a quotation mark, a
backslash and a control character, is as high as can be read back; one more
condition makes it too high. -/
theorem ofJsonText_toJsonText_combination :
    let leaf := Rule.operand ⟨"x\"\\\x00".toList, .equal, .quoted "é \x1f".toList⟩
    let high := (List.replicate 126 leaf).foldl Rule.and leaf
    (high.Constructible ∧ Rule.ofJsonText high.toJsonText = .ok high)
      ∧ (Rule.and high leaf).Constructible
      ∧ Rule.ofJsonText (Rule.and high leaf).toJsonText = .error .jsonText := by
  intro leaf high
  have hleaf : leaf.Constructible := by
    have hreads : Condition.ReadsBack ⟨"x\"\\\x00".toList, .equal, .quoted "é \x1f".toList⟩ := by
      decide +kernel
    exact .condition hreads.parse_render
  have hhigh : high.Constructible := by
    have hall : ∀ r ∈ leaf :: List.replicate 126 leaf, r.Constructible := fun r hr => by
      rw [← List.replicate_succ] at hr
      rw [List.eq_of_mem_replicate hr]
      exact hleaf
    exact .combine hall rfl
  have hheight : high.height = 127 := by decide +kernel
  have hjoined : (Rule.and high leaf).Constructible := .branch hhigh hleaf
  have hjoinedHeight : (Rule.and high leaf).height = 128 := by decide +kernel
  refine ⟨⟨hhigh, ?_⟩, hjoined, ?_⟩
  · rw [ofJsonText_toJsonText hhigh, hheight]
    rfl
  · rw [ofJsonText_toJsonText hjoined, hjoinedHeight]
    rfl

end Rule

end AttributeRules
