import AttributeRules.Condition.Parse
import AttributeRules.Rule.Basic

/-!
# The nested grammar

Rules of any size: AND binds more tightly than OR, chains of one connective
fold to the left, and parentheses group. A connective is a keyword only where
one can stand, so a field may be called `and`.

The tokens are read once from left to right. What has been read is kept as a
stack of open groups, the outermost being the rule itself. Within a group two
rules can be waiting: one that stands before an OR, and one that stands before
an AND; the tokens at hand then belong to the rule that is being read. One
token changes that state or refuses to (`Reading.step`), and a rule is a
sequence of tokens after which nothing is left open (`Reading.finish`). Since
the first token that cannot be accepted stops the reading, the error names the
earliest fault.
-/

namespace AttributeRules

/-- A group that is being read: the rules in it that wait for their right
side. -/
structure Group where
  /-- What stands before the last OR. -/
  beforeOr : Option Rule := none
  /-- What stands before the last AND since then. -/
  beforeAnd : Option Rule := none
deriving DecidableEq, Repr

namespace Group

/-- The conjunction that a rule completes or prolongs. -/
def conjoin (g : Group) (r : Rule) : Rule :=
  match g.beforeAnd with
  | some left => .and left r
  | none => r

/-- The rule of a group that ends with the given rule. -/
def close (g : Group) (r : Rule) : Rule :=
  match g.beforeOr with
  | some left => .or left (g.conjoin r)
  | none => g.conjoin r

/-- The group after a rule and a connective. -/
def continueWith (g : Group) (r : Rule) : Connective → Group
  | .and => ⟨g.beforeOr, some (g.conjoin r)⟩
  | .or => ⟨some (g.close r), none⟩

end Group

/-- Where in a rule the next token stands. -/
inductive Place where
  /-- A condition or a group begins. -/
  | start
  /-- A field has been read. -/
  | afterField (field : Text)
  /-- A field and a comparator have been read. -/
  | afterComparator (field : Text) (comparator : Comparator)
  /-- A condition or a group is complete. -/
  | afterRule (rule : Rule)
deriving DecidableEq, Repr

/-- The state of reading a rule. -/
structure Reading where
  /-- The innermost open group. -/
  group : Group := {}
  /-- The groups around it, from the inside out. -/
  outer : List Group := []
  /-- Where the next token stands. -/
  place : Place := .start
deriving DecidableEq, Repr

namespace Reading

/-- Reads a token that follows a complete rule. -/
def continueRule (s : Reading) (rule : Rule) (token : Token) : Except Malformed Reading :=
  match Connective.ofToken? token with
  -- the rule that follows is the right side of what waits in the group
  | some op => .ok { s with group := s.group.continueWith rule op, place := .start }
  | none =>
    match s.outer, token with
    | [], .closeParen => .error .closeUnexpected
    | [], token => .error (.ruleContinues token)
    | g :: outer, .closeParen => .ok ⟨g, outer, .afterRule (s.group.close rule)⟩
    | _ :: _, token => .error (.closeExpected token)

/-- Reads one token. -/
def step (s : Reading) (token : Token) : Except Malformed Reading :=
  match s.place with
  | .start =>
    -- the group around the new one waits with the rules that wait in it
    if token = .openParen then .ok ⟨{}, s.group :: s.outer, .start⟩
    else do
      let field ← token.asField
      return { s with place := .afterField field }
  | .afterField field => do
    let comparator ← token.asComparator field
    return { s with place := .afterComparator field comparator }
  | .afterComparator field comparator => do
    let literal ← token.asLiteral field comparator
    return { s with place := .afterRule (.operand ⟨field, comparator, literal⟩) }
  | .afterRule rule => s.continueRule rule token

/-- The rule that has been read when the text ends. -/
def finish (s : Reading) : Except Malformed Rule :=
  match s.place with
  | .start => .error .conditionMissing
  | .afterField field => .error (.comparatorMissing field)
  | .afterComparator field comparator => .error (.literalMissing field comparator)
  | .afterRule rule => if s.outer = [] then .ok (s.group.close rule) else .error .closeMissing

/-- Reads a sequence of tokens to its end. -/
def run (s : Reading) : List Token → Except Malformed Rule
  | [] => s.finish
  | token :: tokens => do (← s.step token).run tokens

end Reading

namespace Rule

/-- Reads a sequence of tokens as a rule of the nested grammar. -/
def ofTokens (tokens : List Token) : Except Malformed Rule :=
  if tokens = [] then .error .emptyRule else Reading.run {} tokens

/-- Reads a text as a rule of the nested grammar. -/
def parse (t : Text) : Except Malformed Rule := ofTokens (Token.ofText t)

end Rule

end AttributeRules
