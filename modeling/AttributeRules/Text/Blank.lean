import AttributeRules.Text.Basic

/-!
# Blank characters and words

The characters that separate tokens are those with the Unicode property
`White_Space`: twenty-five of them, of which six are ASCII. `isBlank` is that
property, and `Text.words` cuts a text into its longest runs of other
characters.
-/

namespace AttributeRules

/-- The code points with the property `White_Space`, as inclusive ranges in
ascending order. -/
def blankRanges : List (Nat × Nat) :=
  [(0x09, 0x0D), (0x20, 0x20), (0x85, 0x85), (0xA0, 0xA0), (0x1680, 0x1680),
    (0x2000, 0x200A), (0x2028, 0x2029), (0x202F, 0x202F), (0x205F, 0x205F),
    (0x3000, 0x3000)]

/-- Whether a character is white space. -/
def isBlank (c : Char) : Bool := inRanges blankRanges c

/-- The ten ranges hold twenty-five characters. -/
example : (blankRanges.map fun (first, last) => last + 1 - first).sum = 25 := by decide

namespace Text

/-- Whether the text ends here or goes on with a blank. -/
def endsWord : Text → Bool
  | [] => true
  | c :: _ => isBlank c

/-- Puts a character in front of the first word. -/
def growFirst (c : Char) : List Text → List Text
  | [] => [[c]]
  | w :: ws => (c :: w) :: ws

/-- The longest runs of characters that are not blank, in order. -/
def words : Text → List Text
  | [] => []
  | c :: t =>
    if isBlank c then words t
    else if endsWord t then [c] :: words t
    else growFirst c (words t)

example : words " a\tbc ".toList = ["a".toList, "bc".toList] := by decide

end Text

end AttributeRules
