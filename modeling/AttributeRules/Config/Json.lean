import AttributeRules.Config.Basic
import AttributeRules.Json.Reading
import AttributeRules.Json.Value

/-!
# Configurations from JSON

A configuration is an object in which every member has a default and none may
have a name that means nothing, so that a misspelt name is found. It may also
be an array of the same three things, of which the last ones can be left out.
In a text no name may stand twice.
-/

namespace AttributeRules

namespace Config

/-- The names of the members of a configuration. -/
inductive Member where
  /-- The grammar of rules. -/
  | grammar
  /-- The policy for trailing words. -/
  | trailing
  /-- The number of rules that are kept. -/
  | capacity
deriving DecidableEq, Repr

namespace Member

/-- The name of a member. -/
def name : Member → Text
  | grammar => "grammar".toList
  | trailing => "trailing_tokens".toList
  | capacity => "cache_capacity".toList

/-- All members, in their order as elements of an array. -/
def all : List Member := [grammar, trailing, capacity]

/-- The member that a name means. -/
def ofName? (name : Text) : Option Member := all.find? fun m => m.name = name

end Member

/-- The grammars by name. -/
def grammarChoices : List (Text × Grammar) :=
  [(Grammar.nested.name, .nested), (Grammar.flat.name, .flat)]

/-- The policies by name. -/
def trailingChoices : List (Text × TrailingPolicy) :=
  [(TrailingPolicy.ignore.name, .ignore), (TrailingPolicy.reject.name, .reject)]

/-- Reads one member and puts it into a configuration. -/
def set (c : Config) (m : Member) (j : Json) : Except Json.Mismatch Config :=
  match m with
  | .grammar => do
    let grammar ← j.asChoice grammarChoices
    return { c with dialect.grammar := grammar }
  | .trailing => do
    let trailing ← j.asChoice trailingChoices
    return { c with dialect.trailing := trailing }
  | .capacity => do
    let capacity ← j.asCount
    return { c with capacity := capacity }

/-- Reads a named member and puts it into a configuration. -/
def setNamed (c : Config) (name : Text) (j : Json) : Except Json.Mismatch Config :=
  match Member.ofName? name with
  | some m => c.set m j
  | none => .error (.unknownMember name (Member.all.map Member.name))

/-- Reads a configuration. -/
def ofJson : Json → Except Json.Mismatch Config
  | .object members => members.foldlM (fun c (name, j) => c.setNamed name j) {}
  | .array elements => do
    -- elements beyond the last member are counted only after all others were read
    let c ← (Member.all.zip elements).foldlM (fun (c : Config) (m, j) => c.set m j) {}
    if elements.length ≤ Member.all.length then return c
    else .error (.elementsTrailing elements.length)
  | j => .error (.wrongType j.found .config)

/-- Reads the JSON text of a configuration. -/
def ofText? (t : Text) : Option Config := do
  let d ← Json.Document.ofText? t
  if d.namesDistinct then (ofJson (← d.value? Json.depthLimit)).toOption else none

end Config

end AttributeRules
