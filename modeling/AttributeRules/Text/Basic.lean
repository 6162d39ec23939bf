/-!
# Texts

Rules, fields and literals are texts, and everything the library says about
them it says one character at a time: which character opens a token, which one
closes a quote, where a word ends. A text is therefore a list of characters
throughout, and becomes a `String` only where a message is put together.
-/

namespace AttributeRules

/-- A piece of text, one character after the other. -/
abbrev Text := List Char

/-- Whether the code point of a character lies in one of several inclusive
ranges. -/
def inRanges (ranges : List (Nat × Nat)) (c : Char) : Bool :=
  ranges.any fun (first, last) => first ≤ c.toNat && c.toNat ≤ last

namespace Text

/-- The single quote, which opens and closes a quoted literal. -/
def quoteMark : Char := '\x27'

/-- The text between two single quotes. -/
def inQuotes (t : Text) : Text := quoteMark :: t ++ [quoteMark]

/-- Whether two texts differ at most in the case of ASCII letters. -/
def sameIgnoringCase (s t : Text) : Bool := s.map Char.toLower == t.map Char.toLower

example : sameIgnoringCase "aNd".toList "AND".toList = true := by decide

end Text

end AttributeRules
