import AttributeRules.Dialect

/-!
# The cache of rules

A cache reads the text of a rule once and gives out the same tree whenever the
text comes again. It keeps the first texts that were read successfully, up to
its capacity; once it is full, further texts are still read but no longer kept,
and a text that is no rule is never kept.

That two trees are the same tree, and not merely equal, is told by the stamp
that a tree gets when it is made. Whoever asks the cache provides the stamp for
a tree that has to be made, and a tree that is found keeps its own.
-/

namespace AttributeRules

/-- A rule that is handed around, with the stamp that tells which one it
is. -/
structure SharedRule where
  /-- What distinguishes this tree from all others. -/
  stamp : Nat
  /-- The rule itself. -/
  rule : Rule
deriving DecidableEq, Repr

/-- Rules by text, for one dialect. -/
structure Cache where
  /-- How the texts are read. -/
  dialect : Dialect := {}
  /-- The number of texts that are kept. -/
  capacity : Nat
  /-- The texts that are kept and what they were read as, the first first. -/
  entries : List (Text × SharedRule) := []
deriving DecidableEq, Repr

namespace Cache

/-- The number of texts that are kept now. -/
def size (c : Cache) : Nat := c.entries.length

/-- Whether no text is kept now. -/
def isEmpty (c : Cache) : Bool := c.entries.isEmpty

/-- Keeps what a text was read as, if there is room. -/
def keep (c : Cache) (t : Text) (rule : SharedRule) : Cache :=
  if c.size < c.capacity then { c with entries := c.entries ++ [(t, rule)] } else c

/-- The rule of a text: the one that is kept, or a new one with the given
stamp. -/
def fetch (c : Cache) (stamp : Nat) (t : Text) : Except Malformed (SharedRule × Cache) :=
  match c.entries.lookup t with
  | some rule => .ok (rule, c)
  | none => do
    let rule : SharedRule := ⟨stamp, ← c.dialect.parse t⟩
    return (rule, c.keep t rule)

/-- The cache without its entries. -/
def clear (c : Cache) : Cache := { c with entries := [] }

end Cache

end AttributeRules
