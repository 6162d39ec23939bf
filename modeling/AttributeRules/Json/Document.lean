import AttributeRules.Json.Lexeme

/-!
# JSON documents

A document is what a JSON text says before anything is made of it. Strings are
kept as spelt, with their numeric escapes, numerals as spelt, and the members
of an object in the order written, a repeated name included. Some readers of
a document skip parts of it and others refuse a repeated name; both need the
document and not the value it denotes.

Lexemes are read from left to right with a stack of the arrays and objects
that are still open.
-/

namespace AttributeRules

namespace Json

/-- A JSON text as it is written. -/
inductive Document where
  /-- The value `null`. -/
  | null
  /-- A truth value. -/
  | bool (b : Bool)
  /-- A numeral. -/
  | number (x : Numeral)
  /-- A string as spelt. -/
  | string (s : Spelling)
  /-- The elements of an array. -/
  | array (elements : List Document)
  /-- The members of an object, in the order written. -/
  | object (members : List (Spelling × Document))

namespace Document

/-- An array or object that is still open, with what has been read of it, the
last first. -/
inductive Frame where
  /-- An array. -/
  | array (before : List Document)
  /-- An object, and the name whose value is being read. -/
  | object (before : List (Spelling × Document)) (name : Spelling)

/-- Where in a document the next lexeme stands. -/
inductive Place where
  /-- A value begins. -/
  | value
  /-- An array has been opened. -/
  | firstElement
  /-- An object has been opened. -/
  | firstName
  /-- A further name of an object begins. -/
  | name (before : List (Spelling × Document))
  /-- A name of an object has been read. -/
  | colon (before : List (Spelling × Document)) (name : Spelling)
  /-- A value is complete. -/
  | done (d : Document)

/-- The state of reading a document. -/
structure Reading where
  /-- The open arrays and objects, from the inside out. -/
  stack : List Frame := []
  /-- Where the next lexeme stands. -/
  place : Place := .value

namespace Reading

/-- Reads the first lexeme of a value. -/
def beginValue? (stack : List Frame) : Lexeme → Option Reading
  | .null => some ⟨stack, .done .null⟩
  | .bool b => some ⟨stack, .done (.bool b)⟩
  | .number x => some ⟨stack, .done (.number x)⟩
  | .string s => some ⟨stack, .done (.string s)⟩
  | .openBracket => some ⟨stack, .firstElement⟩
  | .openBrace => some ⟨stack, .firstName⟩
  | _ => none

/-- Reads the lexeme after a complete value. -/
def continueValue? (d : Document) : List Frame → Lexeme → Option Reading
  | .array before :: stack, .comma => some ⟨.array (d :: before) :: stack, .value⟩
  | .array before :: stack, .closeBracket =>
    some ⟨stack, .done (.array (d :: before).reverse)⟩
  | .object before name :: stack, .comma => some ⟨stack, .name ((name, d) :: before)⟩
  | .object before name :: stack, .closeBrace =>
    some ⟨stack, .done (.object ((name, d) :: before).reverse)⟩
  | _, _ => none

/-- Reads one lexeme. -/
def step? (s : Reading) (x : Lexeme) : Option Reading :=
  match s.place, x with
  | .value, x => beginValue? s.stack x
  | .firstElement, .closeBracket => some ⟨s.stack, .done (.array [])⟩
  | .firstElement, x => beginValue? (.array [] :: s.stack) x
  | .firstName, .closeBrace => some ⟨s.stack, .done (.object [])⟩
  | .firstName, .string name => some ⟨s.stack, .colon [] name⟩
  | .name before, .string name => some ⟨s.stack, .colon before name⟩
  | .colon before name, .colon => some ⟨.object before name :: s.stack, .value⟩
  | .done d, x => continueValue? d s.stack x
  | _, _ => none

/-- The document that has been read when the text ends. -/
def finish? : Reading → Option Document
  | ⟨[], .done d⟩ => some d
  | _ => none

/-- Reads a sequence of lexemes to its end. -/
def run? (s : Reading) : List Lexeme → Option Document
  | [] => s.finish?
  | x :: xs => do (← s.step? x).run? xs

end Reading

/-- Reads a sequence of lexemes that is exactly one document. -/
def ofLexemes? (xs : List Lexeme) : Option Document := Reading.run? {} xs

/-- Reads a text that is exactly one document. -/
def ofText? (t : Text) : Option Document := do ofLexemes? (← Lexeme.ofText? t)

end Document

end Json

end AttributeRules
