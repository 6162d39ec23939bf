import AttributeRules.Text.Blank
import AttributeRules.Token.Basic

/-!
# Cutting text into tokens

Blanks separate tokens and belong to none. A parenthesis that opens a token
stands alone. A single quote that opens a token makes it a quoted literal,
which runs – blanks included – to the first later quote that is followed by a
blank, a closing parenthesis or the end of the text; where there is no such
quote, the token is a word like any other. A word runs to the next blank, or
to a closing parenthesis that does not close one opened within the word, so
that `f(x)` is one word while the parenthesis of `30)` closes a group.

`Token.next?` finds the first token and `Token.ofText` all of them. What is
left after a token is shorter than what it was found in
(`Token.length_of_next?`), which is why the scan ends.
-/

namespace AttributeRules

namespace Text

/-- Whether a quote closes its literal when this text follows it. -/
def endsQuote : Text → Bool
  | [] => true
  | c :: _ => isBlank c || c == ')'

/-- Splits a text after the first quote that closes a literal, if there is
one. -/
def splitQuoted? : Text → Option (Text × Text)
  | [] => none
  | c :: t =>
    if c = quoteMark ∧ endsQuote t then some ([c], t)
    else (splitQuoted? t).map fun (inside, rest) => (c :: inside, rest)

/-- Splits a text at the end of the word it begins with, when `depth`
parentheses of the word are already open. -/
def splitWord (depth : Nat) : Text → Text × Text
  | [] => ([], [])
  | c :: t =>
    if isBlank c ∨ (c = ')' ∧ depth = 0) then ([], c :: t)
    else
      -- a closing parenthesis that gets here closes one of the word, so `depth` is positive
      let depth := if c = '(' then depth + 1 else if c = ')' then depth - 1 else depth
      let (w, rest) := splitWord depth t
      (c :: w, rest)

/-- A split at the end of a quoted literal loses nothing. -/
theorem append_of_splitQuoted? {t inside rest : Text}
    (h : splitQuoted? t = some (inside, rest)) : inside ++ rest = t := by
  induction t generalizing inside rest with
  | nil => simp [splitQuoted?] at h
  | cons c t ih =>
    rw [splitQuoted?] at h
    split at h
    · cases h
      rfl
    · obtain ⟨⟨inside', rest'⟩, hsplit, heq⟩ := Option.map_eq_some_iff.1 h
      cases heq
      rw [List.cons_append, ih hsplit]

/-- A split at the end of a word loses nothing. -/
theorem append_splitWord (depth : Nat) (t : Text) :
    (splitWord depth t).1 ++ (splitWord depth t).2 = t := by
  induction t generalizing depth with
  | nil => rfl
  | cons c t ih =>
    rw [splitWord]
    split
    · rfl
    · exact congrArg (c :: ·) (ih _)

end Text

namespace Token

/-- The token that a text without leading blanks begins with, and what
follows it. -/
def first (c : Char) (t : Text) : Token × Text :=
  if c = '(' then (openParen, t)
  else if c = ')' then (closeParen, t)
  else
    match if c = Text.quoteMark then Text.splitQuoted? t else none with
    | some (inside, rest) => (quoted (c :: inside), rest)
    | none =>
      -- a quote that nothing closes is a character like any other
      let (w, rest) := Text.splitWord 0 t
      (word (c :: w), rest)

/-- The first token of a text and what follows it, unless all of the text is
blank. -/
def next? : Text → Option (Token × Text)
  | [] => none
  | c :: t => if isBlank c then next? t else some (first c t)

/-- **The first token begins the text.** -/
theorem text_first_append (c : Char) (t : Text) :
    (first c t).1.text ++ (first c t).2 = c :: t := by
  rw [first]
  split
  · next h => simp [h]
  · split
    · next h => simp [h]
    · split
      · next inside rest h =>
        split at h
        · simp [Text.append_of_splitQuoted? h]
        · cases h
      · simp [Text.append_splitWord]

theorem length_first_le (c : Char) (t : Text) : (first c t).2.length ≤ t.length := by
  have h := congrArg List.length (text_first_append c t)
  have hpos : 0 < (first c t).1.text.length := by
    rw [first]
    split
    · simp
    · split
      · simp
      · split <;> simp
  -- the token takes at least one of the characters that the two share
  simp only [List.length_append, List.length_cons] at h
  omega

/-- **What follows a token is shorter than what the token was found in.** -/
theorem length_of_next? {t rest : Text} {token : Token}
    (h : next? t = some (token, rest)) : rest.length < t.length := by
  induction t with
  | nil => simp [next?] at h
  | cons c t ih =>
    rw [next?] at h
    split at h
    · exact Nat.lt_succ_of_lt (ih h)
    · have hle := length_first_le c t
      rw [Option.some.inj h] at hle
      exact Nat.lt_succ_of_le hle

/-- The tokens of a text, in order. -/
def ofText (t : Text) : List Token :=
  match h : next? t with
  | none => []
  | some (token, rest) =>
    have := length_of_next? h
    token :: ofText rest
termination_by t.length

/-- A text without tokens has none. -/
theorem ofText_eq_nil {t : Text} (h : next? t = none) : ofText t = [] := by
  rw [ofText]
  split
  · rfl
  · next h' => simp [h] at h'

/-- The tokens of a text are its first token and those of what follows. -/
theorem ofText_eq_cons {t rest : Text} {token : Token} (h : next? t = some (token, rest)) :
    ofText t = token :: ofText rest := by
  rw [ofText]
  split
  · next h' => simp [h] at h'
  · next token' rest' h' =>
    rw [h] at h'
    cases h'
    rfl

end Token

end AttributeRules
