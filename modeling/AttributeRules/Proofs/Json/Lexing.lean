import AttributeRules.Json.Document
import AttributeRules.Json.Render
import Mathlib.Data.List.Forall2

/-!
# Cutting written JSON into lexemes

What the writer writes is cut back into the lexemes it was meant to be. Most of
this is about strings: whatever characters a text has, quotes, backslashes and
control characters included, its string is spelt `Spelling.ofText`, and that
spelling is the spelling of the text (`Spelling.text?_ofText`).

`LexedAs` says of a piece of text that it is cut into certain lexemes, whatever
is written behind it. Pieces are put together from smaller ones. The only thing
that can go wrong between two pieces is that a name such as `null` is followed
by a letter, which would belong to it; the writer puts a comma, a closing
bracket or the end of the text there.
-/

namespace AttributeRules

namespace Json

/-! ## Strings -/

/-- How the writer spells a character: by number if it is a control character
without a short escape, and otherwise as a character. -/
def Piece.ofChar (c : Char) : Piece :=
  if c.toNat < 0x20 ∧ c ∉ ['\x08', '\x0C', '\n', '\r', '\t'] then .unit c.toNat else .char c

/-- How the writer spells a text. -/
def Spelling.ofText (t : Text) : Spelling := t.map Piece.ofChar

theorem Spelling.text?_ofChar_cons (c : Char) (s : Spelling) :
    text? (Piece.ofChar c :: s) = (text? s).map (c :: ·) := by
  unfold Piece.ofChar
  split
  · next h =>
    obtain ⟨hcontrol, -⟩ := h
    have hhigh : ¬ IsHigh c.toNat := fun h => by
      unfold IsHigh at h
      omega
    have hlow : ¬ IsLow c.toNat := fun h => by
      unfold IsLow at h
      omega
    rw [text?.eq_def]
    simp only [if_neg hhigh, if_neg hlow, Char.ofNat_toNat]
  · rw [text?]

/-- **The spelling of a text spells that text.** -/
@[simp] theorem Spelling.text?_ofText (t : Text) : text? (ofText t) = some t := by
  induction t with
  | nil => rfl
  | cons c t ih =>
    show text? (Piece.ofChar c :: ofText t) = some (c :: t)
    rw [text?_ofChar_cons, ih]
    rfl

/-- A short escape is read as the character it stands for. -/
theorem splitString?_short {e c : Char} (h : shortEscape? e = some c) (t : Text) :
    splitString? ('\\' :: e :: t)
      = (splitString? t).map fun (s, rest) => (.char c :: s, rest) := by
  have hu : e ≠ 'u' := by
    rintro rfl
    exact absurd h (by simp [shortEscape?])
  rw [splitString?]
  · rw [h]
    cases splitString? t <;> rfl
  · intro _ _ _ _ _ he
    exact absurd he hu

/-- The two digits of a control character spell its number. -/
theorem hexUnit?_control : ∀ n < 0x20,
    hexUnit? '0' '0' (Nat.digitChar (n / 16)) (Nat.digitChar (n % 16)) = some n := by
  decide

/-- What the writer makes of a character: a short escape, the number of a
control character, or the character as it is. -/
theorem escape_cases (c : Char) :
    (∃ e, escape c = ['\\', e] ∧ shortEscape? e = some c ∧ Piece.ofChar c = .char c)
      ∨ (escape c
            = ['\\', 'u', '0', '0', Nat.digitChar (c.toNat / 16), Nat.digitChar (c.toNat % 16)]
          ∧ c.toNat < 0x20 ∧ Piece.ofChar c = .unit c.toNat)
      ∨ (escape c = [c] ∧ (c ≠ '"' ∧ c ≠ '\\' ∧ ¬ c.toNat < 0x20) ∧ Piece.ofChar c = .char c) := by
  by_cases hshort : c ∈ ['"', '\\', '\x08', '\x0C', '\n', '\r', '\t']
  · simp only [List.mem_cons, List.not_mem_nil, or_false] at hshort
    rcases hshort with rfl | rfl | rfl | rfl | rfl | rfl | rfl <;>
      exact Or.inl ⟨_, rfl, rfl, rfl⟩
  · simp only [List.mem_cons, List.not_mem_nil, or_false, not_or] at hshort
    obtain ⟨hquote, hbackslash, hb, hf, hn, hr, ht⟩ := hshort
    unfold escape Piece.ofChar
    rw [if_neg hquote, if_neg hbackslash, if_neg hb, if_neg hf, if_neg hn, if_neg hr, if_neg ht]
    by_cases hcontrol : c.toNat < 0x20
    · rw [if_pos hcontrol, if_pos ⟨hcontrol, by simp [hb, hf, hn, hr, ht]⟩]
      exact Or.inr (Or.inl ⟨rfl, hcontrol, rfl⟩)
    · rw [if_neg hcontrol, if_neg fun h => hcontrol h.1]
      exact Or.inr (Or.inr ⟨rfl, ⟨hquote, hbackslash, hcontrol⟩, rfl⟩)

/-- **An escaped character is read as one piece of a string.** -/
theorem splitString?_escape_append (c : Char) (t : Text) :
    splitString? (escape c ++ t)
      = (splitString? t).map fun (s, rest) => (Piece.ofChar c :: s, rest) := by
  obtain ⟨e, hescape, he, hpiece⟩ | ⟨hescape, hcontrol, hpiece⟩ | ⟨hescape, hplain, hpiece⟩ :=
    escape_cases c
  · rw [hescape, hpiece]
    exact splitString?_short he t
  · rw [hescape, hpiece]
    show splitString? ('\\' :: 'u' :: '0' :: '0' :: _ :: _ :: t) = _
    rw [splitString?, hexUnit?_control c.toNat hcontrol]
    cases splitString? t <;> rfl
  · obtain ⟨hquote, hbackslash, hcontrol⟩ := hplain
    rw [hescape, hpiece, List.singleton_append, splitString?, if_neg hcontrol]
    · cases splitString? t <;> rfl
    · exact hquote
    · intro _ _ _ _ _ h
      exact absurd h hbackslash
    · intro _ _ h
      exact absurd h hbackslash

/-- The string of a text is split off, with the spelling of the text. -/
theorem splitString?_flatMap_escape (t rest : Text) :
    splitString? (t.flatMap escape ++ '"' :: rest) = some (Spelling.ofText t, rest) := by
  induction t with
  | nil => rfl
  | cons c t ih =>
    rw [List.flatMap_cons, List.append_assoc, splitString?_escape_append, ih]
    rfl

/-! ## Lexemes -/

namespace Lexeme

/-- The first lexeme of a text that begins with no space, and the lexemes of
what follows it. -/
theorem ofText?_of_first? {c : Char} {t rest : Text} {x : Lexeme} (hc : isSpace c = false)
    (h : first? (c :: t) = some (x, rest)) : ofText? (c :: t) = (ofText? rest).map (x :: ·) := by
  rw [ofText?, hc]
  simp only [Bool.false_eq_true, if_false]
  split
  · next hnone => exact absurd (hnone.symm.trans h) (by simp)
  · next x' rest' hsome =>
    rw [h] at hsome
    cases hsome
    rfl

/-- Whether what a text begins with cannot belong to a name in front of it. -/
def EndsName (rest : Text) : Prop := ∀ c ∈ rest.head?, c.isAlpha = false

theorem endsName_nil : EndsName [] := fun _ h => nomatch h

theorem endsName_cons {c : Char} (h : c.isAlpha = false) (t : Text) : EndsName (c :: t) := by
  intro c' hc'
  obtain rfl : c = c' := by simpa using hc'
  exact h

/-- **Whether a piece of text is cut into certain lexemes**, whatever is
written behind it that ends a name. -/
def LexedAs (t : Text) (xs : List Lexeme) : Prop :=
  ∀ rest, EndsName rest → ofText? (t ++ rest) = (ofText? rest).map (xs ++ ·)

/-- A text that is cut into certain lexemes has these and no others. -/
theorem LexedAs.ofText? {t : Text} {xs : List Lexeme} (h : LexedAs t xs) :
    ofText? t = some xs := by
  have ht := h [] endsName_nil
  rw [List.append_nil, show Lexeme.ofText? [] = some [] from by rw [Lexeme.ofText?]] at ht
  rw [ht, Option.map_some, List.append_nil]

/-- A lexeme that takes the same characters whatever follows them can be
written in front of a text. -/
theorem LexedAs.cons {c : Char} {t u : Text} {x : Lexeme} {xs : List Lexeme}
    (h : LexedAs u xs) (hc : isSpace c = false)
    (hfirst : ∀ rest, first? (c :: (t ++ rest)) = some (x, rest)) :
    LexedAs (c :: (t ++ u)) (x :: xs) := by
  intro rest hrest
  rw [List.cons_append, List.append_assoc, ofText?_of_first? hc (hfirst (u ++ rest)), h rest hrest,
    Option.map_map]
  rfl

/-- A piece can be written in front of one that ends a name. -/
theorem LexedAs.append {t u : Text} {xs ys : List Lexeme} (h : LexedAs t xs)
    (h' : LexedAs u ys) (hu : ∀ rest, EndsName rest → EndsName (u ++ rest)) :
    LexedAs (t ++ u) (xs ++ ys) := by
  intro rest hrest
  rw [List.append_assoc, h _ (hu rest hrest), h' rest hrest, Option.map_map]
  congr 1
  funext zs
  exact (List.append_assoc ..).symm

theorem lexedAs_nil : LexedAs [] [] := fun rest _ => by simp

/-- The name `null` is a lexeme, unless a letter follows it. -/
theorem lexedAs_null : LexedAs "null".toList [.null] := by
  intro rest hrest
  have htake : ("ull".toList ++ rest).takeWhile Char.isAlpha = "ull".toList := by
    cases rest with
    | nil => decide
    | cons c t => simp [hrest c rfl]
  have hdrop : ("ull".toList ++ rest).dropWhile Char.isAlpha = rest := by
    cases rest with
    | nil => decide
    | cons c t => simp [hrest c rfl]
  have hfirst : first? ('n' :: ("ull".toList ++ rest)) = some (.null, rest) := by
    have hname : ∀ t, first? ('n' :: t) = (ofName? ('n' :: t.takeWhile Char.isAlpha)).map
        fun x => (x, t.dropWhile Char.isAlpha) := fun t => rfl
    rw [hname, htake, hdrop]
    rfl
  exact ofText?_of_first? (by decide) hfirst

/-- The string of a text is a lexeme with the spelling of the text. -/
theorem first?_quote_append (t rest : Text) :
    first? (quote t ++ rest) = some (.string (Spelling.ofText t), rest) := by
  have hsplit : splitString? (t.flatMap escape ++ ['"'] ++ rest)
      = some (Spelling.ofText t, rest) := by
    rw [List.append_assoc]
    exact splitString?_flatMap_escape t rest
  show (splitString? (t.flatMap escape ++ ['"'] ++ rest)).map _ = _
  rw [hsplit]
  rfl

/-- A string can be written in front of every text. -/
theorem LexedAs.quote_append {u : Text} {xs : List Lexeme} (h : LexedAs u xs) (t : Text) :
    LexedAs (quote t ++ u) (.string (Spelling.ofText t) :: xs) :=
  h.cons (by decide) (first?_quote_append t)

theorem lexedAs_quote (t : Text) : LexedAs (quote t) [.string (Spelling.ofText t)] := by
  rw [← List.append_nil (quote t)]
  exact lexedAs_nil.quote_append t

/-! ## Arrays and objects -/

/-- Pieces with commas between them. -/
theorem lexedAs_intercalate {ts : List Text} {xss : List (List Lexeme)}
    (h : List.Forall₂ LexedAs ts xss) :
    LexedAs ([','].intercalate ts) ([.comma].intercalate xss) := by
  induction h with
  | nil => exact lexedAs_nil
  | @cons t xs ts xss hfirst hothers ih =>
    cases hothers with
    | nil =>
      show LexedAs (t ++ []) (xs ++ [])
      rw [List.append_nil, List.append_nil]
      exact hfirst
    | cons _ _ =>
      have hcomma := ih.cons (t := []) (c := ',') (by decide) fun _ => rfl
      exact hfirst.append hcomma fun _ _ => endsName_cons (by decide) _

/-- A member of an object. -/
theorem lexedAs_member {t : Text} {xs : List Lexeme} (h : LexedAs t xs) (name : Text) :
    LexedAs (quote name ++ ':' :: t) (.string (Spelling.ofText name) :: .colon :: xs) :=
  (h.cons (t := []) (c := ':') (by decide) fun _ => rfl).quote_append name

/-- An object around its members. -/
theorem lexedAs_object {t : Text} {xs : List Lexeme} (h : LexedAs t xs) :
    LexedAs ('\x7b' :: t ++ ['\x7d']) (.openBrace :: (xs ++ [.closeBrace])) := by
  have hclose := lexedAs_nil.cons (t := []) (c := '\x7d') (by decide) fun _ => rfl
  have hinside := h.append hclose fun _ _ => endsName_cons (by decide) _
  exact hinside.cons (t := []) (c := '\x7b') (by decide) fun _ => rfl

end Lexeme

end Json

end AttributeRules
