import AttributeRules.Text.Basic

/-!
# Characters that may be left out when text is drawn

A character with the property `Default_Ignorable_Code_Point` leaves no trace
where it is not supported: joiners, variation selectors, the fillers of Hangul.
Most of them do not show for other reasons as well; the four fillers are
letters by category, and only this property tells that they are blank.
-/

namespace AttributeRules

/-- The code points with the property `Default_Ignorable_Code_Point`, as
inclusive ranges in ascending order. -/
def ignorableRanges : List (Nat × Nat) :=
  [(0xAD, 0xAD), (0x34F, 0x34F), (0x61C, 0x61C), (0x115F, 0x1160), (0x17B4, 0x17B5),
    (0x180B, 0x180F), (0x200B, 0x200F), (0x202A, 0x202E), (0x2060, 0x206F), (0x3164, 0x3164),
    (0xFE00, 0xFE0F), (0xFEFF, 0xFEFF), (0xFFA0, 0xFFA0), (0xFFF0, 0xFFF8),
    (0x1BCA0, 0x1BCA3), (0x1D173, 0x1D17A), (0xE0000, 0xE0FFF)]

/-- Whether a character may be left out when text is drawn. -/
def isIgnorable (c : Char) : Bool := inRanges ignorableRanges c

/-- The seventeen ranges hold 4174 characters. -/
example : (ignorableRanges.map fun (first, last) => last + 1 - first).sum = 4174 := by decide

end AttributeRules
