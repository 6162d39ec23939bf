import AttributeRules.Malformed
import AttributeRules.Token.Scan

/-!
# Reading and making literals

A literal alone is a text that scans to one word or one quoted token. Making a
literal for a given text is the reverse, and is refused where it cannot be
reversed: `Literal.quote` fails on a text whose own quotes would close the
literal early, and `Literal.ofText` puts a text into quotes only where the bare
word would not come back as the same text.
-/

namespace AttributeRules

namespace Literal

/-- Reads a text that is exactly one literal. -/
def parse (t : Text) : Except Malformed Literal :=
  match Token.ofText t with
  | [.word s] => .ok (ofToken s)
  | [.quoted s] => .ok (ofToken s)
  | _ => .error (.notLiteral t)

/-- Whether a literal comes back from its own text. -/
def ReadsBack (l : Literal) : Prop := (parse l.render).toOption = some l

instance (l : Literal) : Decidable l.ReadsBack :=
  inferInstanceAs (Decidable (_ = some l))

/-- The literal of an integer, in its plain decimal spelling. -/
def ofInt64 (n : Int64) : Literal := bare (Decimal.ofInt n.toInt)

/-- The quoted literal that stands for a text. -/
def quote (t : Text) : Except Malformed Literal :=
  if (quoted t).ReadsBack then .ok (quoted t) else .error (.notQuotable (quoted t).render)

/-- The literal that stands for a text and is no integer: a bare word where
the text is one, and quoted otherwise. -/
def ofText (t : Text) : Except Malformed Literal :=
  if (bare t).ReadsBack ∧ (bare t).integer? = none then .ok (bare t) else quote t

end Literal

end AttributeRules
