import AttributeRules.Text.Extender
import AttributeRules.Text.Ignorable
import AttributeRules.Text.Unprintable

/-!
# Texts as messages show them

A message that quotes a text it did not expect puts it between double quotes
and escapes what would not show as a character of its own: the two characters
that mean something between the quotes, characters that do not show at all or
may be left out, and characters that would be drawn together with the one
before them.
-/

namespace AttributeRules

namespace Text

/-- A character by the hexadecimal number of its code point. -/
def byNumber (c : Char) : Text :=
  ['\\', 'u', '\x7b'] ++ Nat.toDigits 16 c.toNat ++ ['\x7d']

/-- A character as it is shown. -/
def shownChar (c : Char) : Text :=
  if c = '\x00' then ['\\', '0']
  else if c = '\t' then ['\\', 't']
  else if c = '\r' then ['\\', 'r']
  else if c = '\n' then ['\\', 'n']
  else if c = '"' then ['\\', '"']
  else if c = '\\' then ['\\', '\\']
  else if isCombining c || isIgnorable c || isUnprintable c then byNumber c
  else [c]

/-- A text between double quotes. -/
def shown (t : Text) : Text := '"' :: t.flatMap shownChar ++ ['"']

example : shown ['a', '\t', '\x7f'] = "\"a\\t\\u\x7b7f\x7d\"".toList := by decide +kernel

end Text

end AttributeRules
