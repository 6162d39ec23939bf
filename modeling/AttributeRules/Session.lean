import AttributeRules.Engine
import AttributeRules.Error

/-!
# Sessions

A session is a run of one engine, step by step. Trees that a step hands out
are numbered from zero, and each says which of the earlier ones it is, if it is
one of them. A step that fails hands out nothing and changes nothing but the
time; the time is what new trees are stamped with, so no two steps make the
same tree.
-/

namespace AttributeRules

/-- What an engine can be asked to do. -/
inductive Step where
  /-- Read the text of a rule. -/
  | parse (t : Text)
  /-- Combine trees that have been handed out. -/
  | combine (trees : List SharedRule)
  /-- Evaluate a tree. -/
  | evaluate (tree : SharedRule) (r : Record)
  /-- Evaluate a tree and report what was not decided. -/
  | report (tree : SharedRule) (r : Record)
  /-- Read the text of a rule and evaluate it. -/
  | check (t : Text) (r : Record)
  /-- Forget the rules that have been read. -/
  | clear
deriving DecidableEq, Repr

/-- What a step answers. -/
inductive Outcome where
  /-- A tree with its number, and the number under which it was first handed
  out. -/
  | tree (number : Nat) (sameAs : Option Nat) (rule : Rule)
  /-- A verdict. -/
  | verdict (b : Bool)
  /-- A report. -/
  | report (r : Report)
  /-- Nothing more than that it was done. -/
  | done
deriving DecidableEq, Repr

/-- A run of an engine. -/
structure Session where
  /-- The engine. -/
  engine : Engine := {}
  /-- The trees that have been handed out, by number. -/
  trees : List SharedRule := []
  /-- The number of steps so far. -/
  time : Nat := 0
deriving DecidableEq, Repr

namespace Session

/-- Hands out a tree. -/
def handOut (s : Session) (tree : SharedRule) : Outcome × Session :=
  (.tree s.trees.length (s.trees.findIdx? fun earlier => earlier.stamp = tree.stamp) tree.rule,
    { s with trees := s.trees ++ [tree] })

/-- Takes a step that can fail. -/
def attempt (s : Session) : Step → Except Error (Outcome × Session)
  | .parse t =>
    match s.engine.parse s.time t with
    | .ok (tree, engine) => .ok ({ s with engine }.handOut tree)
    | .error e => .error (.malformed e)
  | .combine trees =>
    match Engine.combine? s.time trees with
    | some tree => .ok (s.handOut tree)
    | none => .error .noRules
  | .evaluate tree r => .ok (.verdict (tree.rule.holds r), s)
  | .report tree r => .ok (.report (tree.rule.report r), s)
  | .check t r =>
    match s.engine.check s.time t r with
    | .ok (b, engine) => .ok (.verdict b, { s with engine })
    | .error e => .error (.malformed e)
  | .clear => .ok (.done, { s with engine := s.engine.clear })

/-- Takes a step. -/
def step (s : Session) (x : Step) : Except Error Outcome × Session :=
  match s.attempt x with
  -- time passes on failure too, so that no stamp is used twice
  | .ok (outcome, next) => (.ok outcome, { next with time := s.time + 1 })
  | .error e => (.error e, { s with time := s.time + 1 })

end Session

end AttributeRules
