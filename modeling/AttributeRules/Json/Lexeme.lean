import AttributeRules.Json.Numeral

/-!
# Lexemes of JSON

A JSON text is first cut into lexemes: punctuation, strings, numerals and the
three names. Blanks between them are the four that JSON allows. A string is
kept as spelt: its short escapes are replaced by what they stand for, but an
escape by number is kept as a number, because half of a surrogate pair is a
correct spelling of no character.
-/

namespace AttributeRules

namespace Json

/-- One piece of a string. -/
inductive Piece where
  /-- A character, written as such or by a short escape. -/
  | char (c : Char)
  /-- A code unit of sixteen bits, written by its number. -/
  | unit (n : Nat)
deriving DecidableEq, Repr

/-- A string as spelt. -/
abbrev Spelling := List Piece

namespace Spelling

/-- Whether a code unit is the first half of a surrogate pair. -/
def IsHigh (n : Nat) : Prop := 0xD800 ≤ n ∧ n < 0xDC00

/-- Whether a code unit is the second half of a surrogate pair. -/
def IsLow (n : Nat) : Prop := 0xDC00 ≤ n ∧ n < 0xE000

instance (n : Nat) : Decidable (IsHigh n) := inferInstanceAs (Decidable (_ ∧ _))

instance (n : Nat) : Decidable (IsLow n) := inferInstanceAs (Decidable (_ ∧ _))

/-- The character that a surrogate pair encodes. -/
def ofPair (high low : Nat) : Char :=
  Char.ofNat (0x10000 + (high - 0xD800) * 0x400 + (low - 0xDC00))

/-- The text that is spelt, unless half of a surrogate pair stands alone. -/
def text? : Spelling → Option Text
  | [] => some []
  | .char c :: s => (text? s).map (c :: ·)
  | .unit n :: s =>
    if IsHigh n then
      match s with
      | .unit m :: s => if IsLow m then (text? s).map (ofPair n m :: ·) else none
      | _ => none
    else if IsLow n then none
    else (text? s).map (Char.ofNat n :: ·)

end Spelling

/-- The value of a hexadecimal digit. -/
def hexDigit? (c : Char) : Option Nat :=
  if c.isDigit then some (c.toNat - '0'.toNat)
  else if 'a' ≤ c ∧ c ≤ 'f' then some (c.toNat - 'a'.toNat + 10)
  else if 'A' ≤ c ∧ c ≤ 'F' then some (c.toNat - 'A'.toNat + 10)
  else none

/-- The value of four hexadecimal digits. -/
def hexUnit? (a b c d : Char) : Option Nat := do
  return ((← hexDigit? a) * 16 + (← hexDigit? b)) * 256 + ((← hexDigit? c) * 16 + (← hexDigit? d))

/-- The character that a short escape stands for. -/
def shortEscape? : Char → Option Char
  | '"' => some '"'
  | '\\' => some '\\'
  | '/' => some '/'
  | 'b' => some '\x08'
  | 'f' => some '\x0C'
  | 'n' => some '\n'
  | 'r' => some '\r'
  | 't' => some '\t'
  | _ => none

/-- Splits off a string whose opening quote has been read. -/
def splitString? : Text → Option (Spelling × Text)
  | [] => none
  | '"' :: t => some ([], t)
  | '\\' :: 'u' :: a :: b :: c :: d :: t => do
    let n ← hexUnit? a b c d
    let (s, rest) ← splitString? t
    return (.unit n :: s, rest)
  | '\\' :: c :: t => do
    let c ← shortEscape? c
    let (s, rest) ← splitString? t
    return (.char c :: s, rest)
  | c :: t =>
    if c.toNat < 0x20 then none
    else do
      let (s, rest) ← splitString? t
      return (.char c :: s, rest)

/-- What follows a string is no longer than what the string was found in. -/
theorem length_of_splitString? {t rest : Text} {s : Spelling}
    (h : splitString? t = some (s, rest)) : rest.length ≤ t.length := by
  fun_induction splitString? t generalizing s rest with
  | case1 => cases h
  | case2 => cases h; simp
  | case3 a b c d t ih =>
    simp only [Option.bind_eq_bind, Option.bind_eq_some_iff] at h
    obtain ⟨_, _, ⟨s', r⟩, hs, heq⟩ := h
    cases heq
    have := ih hs
    simp only [List.length_cons]
    omega
  | case4 c t _ ih =>
    simp only [Option.bind_eq_bind, Option.bind_eq_some_iff] at h
    obtain ⟨_, _, ⟨s', r⟩, hs, heq⟩ := h
    cases heq
    have := ih hs
    simp only [List.length_cons]
    omega
  | case5 => cases h
  | case6 c t _ _ _ _ ih =>
    simp only [Option.bind_eq_bind, Option.bind_eq_some_iff] at h
    obtain ⟨⟨s', r⟩, hs, heq⟩ := h
    cases heq
    have := ih hs
    simp only [List.length_cons]
    omega

/-- One lexeme. -/
inductive Lexeme where
  /-- A brace that opens an object. -/
  | openBrace
  /-- A brace that closes an object. -/
  | closeBrace
  /-- A bracket that opens an array. -/
  | openBracket
  /-- A bracket that closes an array. -/
  | closeBracket
  /-- A comma. -/
  | comma
  /-- A colon. -/
  | colon
  /-- The name `null`. -/
  | null
  /-- The name `true` or `false`. -/
  | bool (b : Bool)
  /-- A numeral. -/
  | number (x : Numeral)
  /-- A string. -/
  | string (s : Spelling)
deriving DecidableEq, Repr

namespace Lexeme

/-- Whether a character separates lexemes. -/
def isSpace (c : Char) : Bool := c = ' ' || c = '\t' || c = '\n' || c = '\r'

/-- Whether a character can stand in a numeral. -/
def isNumeric (c : Char) : Bool :=
  c.isDigit || c = '-' || c = '+' || c = '.' || c = 'e' || c = 'E'

/-- The lexeme that is a name. -/
def ofName? (t : Text) : Option Lexeme :=
  if t = "null".toList then some .null
  else if t = "true".toList then some (.bool true)
  else if t = "false".toList then some (.bool false)
  else none

/-- The lexeme that a text begins with, and what follows it. -/
def first? : Text → Option (Lexeme × Text)
  | [] => none
  | '\x7b' :: t => some (openBrace, t)
  | '\x7d' :: t => some (closeBrace, t)
  | '[' :: t => some (openBracket, t)
  | ']' :: t => some (closeBracket, t)
  | ',' :: t => some (comma, t)
  | ':' :: t => some (colon, t)
  | '"' :: t => (splitString? t).map fun (s, rest) => (string s, rest)
  | c :: t =>
    -- a numeral and a name take everything that could belong to them
    if c.isDigit ∨ c = '-' then
      (Numeral.ofText? (c :: t.takeWhile isNumeric)).map fun x =>
        (number x, t.dropWhile isNumeric)
    else
      (ofName? (c :: t.takeWhile Char.isAlpha)).map fun x => (x, t.dropWhile Char.isAlpha)

/-- **What follows a lexeme is shorter than what the lexeme was found in.** -/
theorem length_of_first? {t rest : Text} {x : Lexeme} (h : first? t = some (x, rest)) :
    rest.length < t.length := by
  have hdrop (p : Char → Bool) (t : Text) : (t.dropWhile p).length ≤ t.length :=
    (List.dropWhile_sublist p).length_le
  unfold first? at h
  split at h
  · cases h
  all_goals try (cases h; exact Nat.lt_succ_self _)
  · obtain ⟨⟨s, r⟩, hs, heq⟩ := Option.map_eq_some_iff.1 h
    cases heq
    exact Nat.lt_succ_of_le (length_of_splitString? hs)
  · split at h
    · obtain ⟨_, _, heq⟩ := Option.map_eq_some_iff.1 h
      cases heq
      exact Nat.lt_succ_of_le (hdrop _ _)
    · obtain ⟨_, _, heq⟩ := Option.map_eq_some_iff.1 h
      cases heq
      exact Nat.lt_succ_of_le (hdrop _ _)

/-- The lexemes of a text, unless a part of it is none. -/
def ofText? : Text → Option (List Lexeme)
  | [] => some []
  | c :: t =>
    if isSpace c then ofText? t
    else
      match h : first? (c :: t) with
      | none => none
      | some (x, rest) =>
        have := length_of_first? h
        (ofText? rest).map (x :: ·)
termination_by t => t.length
decreasing_by
  · exact Nat.lt_succ_self _
  · exact this

end Lexeme

end Json

end AttributeRules
