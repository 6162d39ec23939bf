import AttributeRules.Text.Basic

/-!
# Tokens

Rule text is read as a sequence of tokens. A token keeps its characters
exactly as they stand in the rule, quotes included, since a literal is stored
and shown in the spelling it was written with.
-/

namespace AttributeRules

/-- One token of a rule. -/
inductive Token where
  /-- A bare word, such as `age`, `>`, `30` or `AND`. -/
  | word (text : Text)
  /-- A single-quoted literal, its two quotes included. -/
  | quoted (text : Text)
  /-- An opening parenthesis that stands alone. -/
  | openParen
  /-- A closing parenthesis that stands alone. -/
  | closeParen
deriving DecidableEq, Repr

namespace Token

/-- The characters of the token as they stand in the rule. -/
def text : Token → Text
  | word t => t
  | quoted t => t
  | openParen => ['(']
  | closeParen => [')']

/-- The token as messages show it: in single quotes, unless it brings its
own. -/
def shown : Token → Text
  | quoted t => t
  | token => Text.inQuotes token.text

@[simp] theorem text_word (t : Text) : (word t).text = t := rfl

@[simp] theorem text_quoted (t : Text) : (quoted t).text = t := rfl

@[simp] theorem text_openParen : openParen.text = ['('] := rfl

@[simp] theorem text_closeParen : closeParen.text = [')'] := rfl

end Token

end AttributeRules
