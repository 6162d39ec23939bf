import AttributeRules.Decimal.Integer

/-!
# Literals

The right-hand side of a condition is a literal, and a literal is remembered
as it was written. A quoted one stands for the text between its quotes. A bare
one stands for its own characters, and is a number as well when they spell an
integer of at most 128 bits – so `+007` is the integer 7 and still the text
`+007`. Being a number is a property of the spelling and not a third kind of
literal: two bare literals are equal exactly when they are spelt alike.
-/

namespace AttributeRules

/-- The right-hand side of a condition. -/
inductive Literal where
  /-- A text between single quotes; the quotes are not part of it. -/
  | quoted (content : Text)
  /-- A word. -/
  | bare (word : Text)
deriving DecidableEq, Repr

namespace Literal

/-- The text a literal stands for. -/
def text : Literal → Text
  | quoted content => content
  | bare word => word

/-- The literal as it is written in a rule. -/
def render : Literal → Text
  | quoted content => Text.inQuotes content
  | bare word => word

/-- Whether the literal is written in quotes. -/
def isQuoted : Literal → Bool
  | quoted _ => true
  | bare _ => false

/-- The bound on the integers a literal can stand for, two to the power of
127. -/
def integerBound : Int := 0x80000000000000000000000000000000

/-- Whether an integer has at most 128 bits, one of them for the sign. -/
def InRange (n : Int) : Prop := -integerBound ≤ n ∧ n < integerBound

instance (n : Int) : Decidable (InRange n) := inferInstanceAs (Decidable (_ ∧ _))

/-- The integer a literal stands for: the value of a bare decimal spelling, if
it is in range. -/
def integer? : Literal → Option Int
  | quoted _ => none
  | bare word => (Decimal.integer? word).filter fun n => InRange n

/-- The text between the quotes of a text that opens and closes with one. -/
def unquote? : Text → Option Text
  | [] => none
  | c :: t =>
    if c = Text.quoteMark ∧ t.getLast? = some Text.quoteMark then some t.dropLast else none

/-- The literal that the characters of a token spell. -/
def ofToken (t : Text) : Literal :=
  match unquote? t with
  | some content => quoted content
  | none => bare t

@[simp] theorem text_quoted (t : Text) : (quoted t).text = t := rfl

@[simp] theorem text_bare (t : Text) : (bare t).text = t := rfl

@[simp] theorem render_quoted (t : Text) : (quoted t).render = Text.inQuotes t := rfl

@[simp] theorem render_bare (t : Text) : (bare t).render = t := rfl

end Literal

end AttributeRules
