import AttributeRules.Json.Reading
import AttributeRules.Json.Render
import AttributeRules.Json.Value
import AttributeRules.Stored.Basic

/-!
# Stored rules as JSON

A node is an object with the members `node_type`, `value`, `left` and `right`.
The last two may be absent or `null` where there is no child, and members with
other names are passed over. A node may also be given as an array of the four
in that order.

Reading a decoded value reports what does not fit. Reading a text is stricter
than decoding it and reading the value: a name that means something may stand
only once. And it is more lenient: what stands under a name that means nothing
is not looked at beyond its grammar. Such members are removed from the document
before it is decoded.
-/

namespace AttributeRules

namespace StoredNode

/-- The names of the members of a node. -/
inductive Member where
  /-- The kind of the node. -/
  | kind
  /-- The text of the node. -/
  | value
  /-- The left child. -/
  | left
  /-- The right child. -/
  | right
deriving DecidableEq, Repr

/-- The name of a member. -/
def Member.name : Member → Text
  | kind => "node_type".toList
  | value => "value".toList
  | left => "left".toList
  | right => "right".toList

/-- The member that a name means. -/
def Member.ofName? (name : Text) : Option Member :=
  [kind, value, left, right].find? fun m => m.name = name

/-- The kinds of nodes by name. -/
def kindChoices : List (Text × NodeKind) :=
  [(NodeKind.operator.name, .operator), (NodeKind.operand.name, .operand)]

/-! ## Writing -/

/-- The JSON value of a node. -/
def toJson : StoredNode → Json
  | ⟨kind, value, left, right⟩ =>
    .object
      [(Member.kind.name, .string kind.name),
        (Member.value.name, .string value),
        (Member.left.name, match left with | none => .null | some n => n.toJson),
        (Member.right.name, match right with | none => .null | some n => n.toJson)]

/-- The JSON text of a node. -/
def toText (n : StoredNode) : Text := n.toJson.render

/-! ## Reading a value -/

/-- What has been read of a node. -/
structure Parts where
  /-- The kind, if it has been read. -/
  kind : Option NodeKind := none
  /-- The text, if it has been read. -/
  value : Option Text := none
  /-- The left child, if there is one. -/
  left : Option StoredNode := none
  /-- The right child, if there is one. -/
  right : Option StoredNode := none

/-- The node that has been read, if nothing is missing. -/
def Parts.node (p : Parts) : Except Json.Mismatch StoredNode :=
  match p.kind, p.value with
  | none, _ => .error (.memberMissing Member.kind.name)
  | some _, none => .error (.memberMissing Member.value.name)
  | some kind, some value => .ok ⟨kind, value, p.left, p.right⟩

mutual

/-- Reads a node. -/
def ofJson : Json → Except Json.Mismatch StoredNode
  | .object members => do (← ofMembers members).node
  | .array elements => ofElements elements
  | j => .error (.wrongType j.found .storedNode)

/-- Reads the members of a node in their order. -/
def ofMembers : List (Text × Json) → Except Json.Mismatch Parts
  | [] => .ok {}
  | (name, j) :: members =>
    match Member.ofName? name with
    | none => ofMembers members
    | some .kind => do
      let kind ← j.asChoice kindChoices
      return { ← ofMembers members with kind := kind }
    | some .value => do
      let value ← j.asText
      return { ← ofMembers members with value := value }
    | some .left => do
      let left ← if j.isNull then pure none else some <$> ofJson j
      return { ← ofMembers members with left := left }
    | some .right => do
      let right ← if j.isNull then pure none else some <$> ofJson j
      return { ← ofMembers members with right := right }

/-- Reads the elements of a node in the form of an array. -/
def ofElements : List Json → Except Json.Mismatch StoredNode
  | [] => .error (.elementsMissing 0)
  | kind :: elements => do
    let kind ← kind.asChoice kindChoices
    match elements with
    | [] => .error (.elementsMissing 1)
    | value :: elements =>
      let value ← value.asText
      match elements with
      | [] => return ⟨kind, value, none, none⟩
      | left :: elements =>
        let left ← if left.isNull then pure none else some <$> ofJson left
        match elements with
        | [] => return ⟨kind, value, left, none⟩
        | right :: elements =>
          let right ← if right.isNull then pure none else some <$> ofJson right
          if elements = [] then return ⟨kind, value, left, right⟩
          else .error (.elementsTrailing (elements.length + 4))

end

/-! ## Reading a text -/

mutual

/-- Removes from a document that is to be read as a node the members whose
names mean nothing. Every name has to spell a text. -/
def relevant? : Json.Document → Option Json.Document
  | .object members => (relevantMembers? members).map .object
  | .array elements => (relevantElements? elements).map .array
  | d => some d

/-- The members of a node whose names mean something. -/
def relevantMembers? :
    List (Json.Spelling × Json.Document) → Option (List (Json.Spelling × Json.Document))
  | [] => some []
  | (s, d) :: members => do
    let name ← s.text?
    let rest ← relevantMembers? members
    match Member.ofName? name with
    -- the value of an unknown member is dropped, whatever it is
    | none => return rest
    | some .kind => return (s, d) :: rest
    | some .value => return (s, d) :: rest
    | some .left => return (s, ← relevant? d) :: rest
    | some .right => return (s, ← relevant? d) :: rest

/-- The elements of a node in the form of an array, the last two of which are
nodes themselves. -/
def relevantElements? : List Json.Document → Option (List Json.Document)
  | [kind, value, left] => return [kind, value, ← relevant? left]
  | [kind, value, left, right] => return [kind, value, ← relevant? left, ← relevant? right]
  | elements => some elements

end

/-- Reads the JSON text of a node. -/
def ofText? (t : Text) : Option StoredNode := do
  let d ← relevant? (← Json.Document.ofText? t)
  if d.namesDistinct then (ofJson (← d.value? Json.depthLimit)).toOption else none

end StoredNode

end AttributeRules
