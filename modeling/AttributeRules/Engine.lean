import AttributeRules.Cache
import AttributeRules.Config.Basic
import AttributeRules.Evaluation
import AttributeRules.Rule.Combine

/-!
# Engines

An engine is a configuration together with the cache it prescribes. Trees that
an engine makes are stamped by its caller; a combination of several trees is a
new tree, while the combination of a single one is that tree.
-/

namespace AttributeRules

/-- A configured engine. -/
structure Engine where
  /-- The configuration. -/
  config : Config := {}
  /-- The rules that have been read. -/
  cache : Cache := { dialect := config.dialect, capacity := config.capacity }
deriving DecidableEq, Repr

namespace Engine

/-- The new engine with a given configuration. -/
def ofConfig (config : Config) : Engine := { config }

/-- Reads the text of a rule by way of the cache. -/
def parse (e : Engine) (stamp : Nat) (t : Text) : Except Malformed (SharedRule × Engine) := do
  let (rule, cache) ← e.cache.fetch stamp t
  return (rule, { e with cache })

/-- Combines rules into their conjunction. -/
def combine? (stamp : Nat) : List SharedRule → Option SharedRule
  | [rule] => some rule
  | rules => (Rule.combine? (rules.map (·.rule))).map fun rule => ⟨stamp, rule⟩

/-- Reads the text of a rule and evaluates it. -/
def check (e : Engine) (stamp : Nat) (t : Text) (r : Record) :
    Except Malformed (Bool × Engine) := do
  let (rule, e) ← e.parse stamp t
  return (rule.rule.holds r, e)

/-- Forgets the rules that have been read. -/
def clear (e : Engine) : Engine := { e with cache := e.cache.clear }

end Engine

end AttributeRules
