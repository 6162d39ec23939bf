import AttributeRules.Json.Mismatch
import AttributeRules.Record.Json
import AttributeRules.Stored.Basic

/-!
# Errors

The ways in which a request to the library can fail, under one type. An error
is the cause that one of the parts reports, and says what that cause says.
-/

namespace AttributeRules

/-- Why a request failed. -/
inductive Error where
  /-- A text or a part put together by hand is malformed. -/
  | malformed (cause : Malformed)
  /-- There are no rules to combine. -/
  | noRules
  /-- A stored node is no rule. -/
  | storage (cause : StorageFault)
  /-- A JSON value is no record. -/
  | record (cause : RecordFault)
  /-- A JSON value has the wrong shape. -/
  | mismatch (cause : Json.Mismatch)
  /-- A JSON text could not be read as what it should be. -/
  | jsonText
deriving DecidableEq, Repr

namespace Error

/-- The message of an error. For a JSON text that could not be read there is
none. -/
def message? : Error → Option Text
  | malformed cause => some cause.message
  | noRules => some "No valid rules found to combine".toList
  | storage cause => some cause.message
  | record cause => some cause.message
  | mismatch cause => some cause.message
  | jsonText => none

end Error

end AttributeRules
