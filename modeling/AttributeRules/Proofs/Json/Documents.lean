import AttributeRules.Json.Document

/-!
# Documents and their lexemes

Every document is read back from its lexemes (`Document.ofLexemes?_lexemes`).
The statement that carries this is about a document in the middle of others:
where a value is expected, reading the lexemes of a document is the same as
being given the document at once, whatever arrays and objects are open around
it and whatever follows (`Document.Reading.run?_lexemes_append`).
-/

namespace AttributeRules

namespace Json

namespace Document

mutual

/-- The lexemes of a document. -/
def lexemes : Document → List Lexeme
  | .null => [.null]
  | .bool b => [.bool b]
  | .number x => [.number x]
  | .string s => [.string s]
  | .array elements =>
    .openBracket :: ([.comma].intercalate (elementLexemes elements) ++ [.closeBracket])
  | .object members =>
    .openBrace :: ([.comma].intercalate (memberLexemes members) ++ [.closeBrace])

/-- The lexemes of each element of an array. -/
def elementLexemes : List Document → List (List Lexeme)
  | [] => []
  | d :: ds => d.lexemes :: elementLexemes ds

/-- The lexemes of each member of an object. -/
def memberLexemes : List (Spelling × Document) → List (List Lexeme)
  | [] => []
  | (s, d) :: members => (.string s :: .colon :: d.lexemes) :: memberLexemes members

end

namespace Reading

/-- Whether a document is read from its lexemes wherever a value is
expected. -/
def Reads (d : Document) : Prop :=
  ∀ stack xs, run? ⟨stack, .value⟩ (d.lexemes ++ xs) = run? ⟨stack, .done d⟩ xs

/-- The elements of an array that is open are read up to its end. -/
theorem run?_elementLexemes_append {first : Document} {others : List Document}
    (h : ∀ d ∈ first :: others, Reads d) (stack : List Frame) (before : List Document)
    (xs : List Lexeme) :
    run? ⟨.array before :: stack, .value⟩
        ([.comma].intercalate (elementLexemes (first :: others)) ++ .closeBracket :: xs)
      = run? ⟨stack, .done (.array (before.reverse ++ first :: others))⟩ xs := by
  induction others generalizing first before with
  | nil =>
    have hfirst : Reads first := h first (by simp)
    have hclose : run? ⟨.array before :: stack, .done first⟩ (.closeBracket :: xs)
        = run? ⟨stack, .done (.array (first :: before).reverse)⟩ xs := rfl
    show run? _ (first.lexemes ++ [] ++ .closeBracket :: xs) = _
    rw [List.append_nil, hfirst, hclose, List.reverse_cons]
  | cons second others ih =>
    obtain ⟨hfirst, hothers⟩ := List.forall_mem_cons.1 h
    have hcomma : ∀ ys, run? ⟨.array before :: stack, .done first⟩ (.comma :: ys)
        = run? ⟨.array (first :: before) :: stack, .value⟩ ys := fun ys => rfl
    show run? _ (first.lexemes ++ (.comma :: [.comma].intercalate
      (elementLexemes (second :: others))) ++ .closeBracket :: xs) = _
    rw [List.append_assoc, hfirst, List.cons_append, hcomma, ih hothers, List.reverse_cons,
      List.append_assoc, List.singleton_append]

/-- The members of an object that is open are read up to its end. -/
theorem run?_memberLexemes_append {s : Spelling} {first : Document}
    {others : List (Spelling × Document)} (h : ∀ p ∈ (s, first) :: others, Reads p.2)
    (stack : List Frame) (before : List (Spelling × Document)) (xs : List Lexeme) :
    run? ⟨stack, .name before⟩
        ([.comma].intercalate (memberLexemes ((s, first) :: others)) ++ .closeBrace :: xs)
      = run? ⟨stack, .done (.object (before.reverse ++ (s, first) :: others))⟩ xs := by
  have hname : ∀ s before ys, run? ⟨stack, .name before⟩ (.string s :: .colon :: ys)
      = run? ⟨.object before s :: stack, .value⟩ ys := fun s before ys => rfl
  induction others generalizing s first before with
  | nil =>
    have hfirst : Reads first := h (s, first) (by simp)
    have hclose : run? ⟨.object before s :: stack, .done first⟩ (.closeBrace :: xs)
        = run? ⟨stack, .done (.object ((s, first) :: before).reverse)⟩ xs := rfl
    show run? _ (.string s :: .colon :: (first.lexemes ++ [] ++ .closeBrace :: xs)) = _
    rw [hname, List.append_nil, hfirst, hclose, List.reverse_cons]
  | cons second others ih =>
    obtain ⟨s', second⟩ := second
    have hfirst : Reads first := h (s, first) (by simp)
    have hothers := (List.forall_mem_cons.1 h).2
    have hcomma : ∀ ys, run? ⟨.object before s :: stack, .done first⟩ (.comma :: ys)
        = run? ⟨stack, .name ((s, first) :: before)⟩ ys := fun ys => rfl
    show run? _ (.string s :: .colon :: (first.lexemes ++ (.comma :: [.comma].intercalate
      (memberLexemes ((s', second) :: others))) ++ .closeBrace :: xs)) = _
    rw [hname, List.append_assoc, hfirst, List.cons_append, hcomma,
      ih hothers, List.reverse_cons, List.append_assoc, List.singleton_append]

/-- Something that is joined begins with its first part. -/
theorem exists_intercalate_cons {α : Type} (sep first : List α) (others : List (List α)) :
    ∃ more, sep.intercalate (first :: others) = first ++ more := by
  cases others with
  | nil => exact ⟨[], rfl⟩
  | cons second others => exact ⟨sep ++ sep.intercalate (second :: others), rfl⟩

/-- What opens an array is followed by its first element as an open array is
by any other. -/
theorem run?_openBracket (stack : List Frame) (first : Document) (others : List Document)
    (xs : List Lexeme) :
    run? ⟨stack, .value⟩
        (.openBracket :: ([.comma].intercalate (elementLexemes (first :: others)) ++ xs))
      = run? ⟨.array [] :: stack, .value⟩
        ([.comma].intercalate (elementLexemes (first :: others)) ++ xs) := by
  obtain ⟨more, hmore⟩ := exists_intercalate_cons [.comma] first.lexemes (elementLexemes others)
  rw [elementLexemes, hmore]
  cases first <;> rfl

/-- What opens an object is followed by its first member as a comma is by any
other. -/
theorem run?_openBrace (stack : List Frame) (s : Spelling) (first : Document)
    (others : List (Spelling × Document)) (xs : List Lexeme) :
    run? ⟨stack, .value⟩
        (.openBrace :: ([.comma].intercalate (memberLexemes ((s, first) :: others)) ++ xs))
      = run? ⟨stack, .name []⟩
        ([.comma].intercalate (memberLexemes ((s, first) :: others)) ++ xs) := by
  obtain ⟨more, hmore⟩ := exists_intercalate_cons [.comma]
    (.string s :: .colon :: first.lexemes) (memberLexemes others)
  rw [memberLexemes, hmore]
  rfl

/-- The value of a member is smaller than the members. -/
theorem sizeOf_snd_lt {members : List (Spelling × Document)} {p : Spelling × Document}
    (h : p ∈ members) : sizeOf p.2 < sizeOf members := by
  have hp := List.sizeOf_lt_of_mem h
  have hsize : sizeOf p = 1 + sizeOf p.1 + sizeOf p.2 := rfl
  omega

/-- **Every document is read from its lexemes**, whatever is open around it and
whatever follows it. -/
theorem reads (d : Document) : Reads d := by
  intro stack xs
  match d with
  | .null => rfl
  | .bool b => rfl
  | .number x => rfl
  | .string s => rfl
  | .array [] => rfl
  | .array (first :: others) =>
    have hall : ∀ d ∈ first :: others, Reads d := fun d hd => reads d
    rw [lexemes, List.cons_append, List.append_assoc, run?_openBracket]
    exact run?_elementLexemes_append hall stack [] xs
  | .object [] => rfl
  | .object ((s, first) :: others) =>
    have hall : ∀ p ∈ (s, first) :: others, Reads p.2 := fun p hp => reads p.2
    rw [lexemes, List.cons_append, List.append_assoc, run?_openBrace]
    exact run?_memberLexemes_append hall stack [] xs
-- the recursion is through membership in the lists, not through their constructors
termination_by sizeOf d
decreasing_by
  · have hsize := List.sizeOf_lt_of_mem hd
    rw [array.sizeOf_spec]
    omega
  · have hsize := sizeOf_snd_lt hp
    rw [object.sizeOf_spec]
    omega

end Reading

/-- **Every document comes back from its lexemes.** -/
theorem ofLexemes?_lexemes (d : Document) : ofLexemes? d.lexemes = some d := by
  have hreads := Reading.reads d [] []
  rw [List.append_nil] at hreads
  exact hreads

end Document

end Json

end AttributeRules
