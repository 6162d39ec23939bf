import AttributeRules.Proofs.Cache.Fetch
import AttributeRules.Session

/-!
# Sessions without a cache

A caller of an engine names the trees that were handed out by their numbers,
and sees of an answer the rule, the verdict, the report or the error. Seen in
this way a session is the same as a `Reference`, which has no cache, no stamps
and no capacity: it reads every text anew with the dialect of the
configuration and remembers nothing but the rules it has handed out.

The two are kept in step by `Session.Agrees`: the cache of the session is sound
and reads texts as the reference does, and the trees handed out are the rules
handed out. Every request, failing ones included, gets the same answer from
both and leaves them in step (`Session.Agrees.request`), so every sequence of
requests gets the same answers (`Session.answers_eq_reference`). Nothing in
the reference depends on a capacity, so neither do the answers of a session.
-/

namespace AttributeRules

/-! ## What callers ask and see -/

/-- What a caller can ask of an engine, naming trees by number. -/
inductive Request where
  /-- To read the text of a rule. -/
  | parse (t : Text)
  /-- To combine trees. -/
  | combine (numbers : List Nat)
  /-- To evaluate a tree. -/
  | evaluate (number : Nat) (r : Record)
  /-- To evaluate a tree and report what was not decided. -/
  | report (number : Nat) (r : Record)
  /-- To read the text of a rule and evaluate it. -/
  | check (t : Text) (r : Record)
  /-- To forget the rules that have been read. -/
  | clear
deriving DecidableEq, Repr

/-- What a caller sees of an answer: everything but which tree it is. -/
inductive Answer where
  /-- A rule. -/
  | rule (r : Rule)
  /-- A verdict. -/
  | verdict (b : Bool)
  /-- A report. -/
  | report (r : Report)
  /-- Nothing more than that it was done. -/
  | done
deriving DecidableEq, Repr

/-- What a caller sees of an outcome. -/
def Outcome.answer : Outcome → Answer
  | tree _ _ rule => .rule rule
  | verdict b => .verdict b
  | report r => .report r
  | done => .done

/-- The step that a request asks for, once the trees it names are known; none
if it names one that has not been handed out. -/
def Request.step? (trees : List SharedRule) : Request → Option Step
  | parse t => some (.parse t)
  | combine numbers => (numbers.mapM fun n => trees[n]?).map .combine
  | evaluate number r => trees[number]?.map fun tree => .evaluate tree r
  | report number r => trees[number]?.map fun tree => .report tree r
  | check t r => some (.check t r)
  | clear => some .clear

namespace Session

/-- The new session of a configuration. -/
def ofConfig (config : Config) : Session := { engine := Engine.ofConfig config }

/-- Answers a request; there is no answer to one that names a tree that has
not been handed out. -/
def request (s : Session) (x : Request) : Option (Except Error Answer) × Session :=
  match x.step? s.trees with
  | some step => (some ((s.step step).1.map Outcome.answer), (s.step step).2)
  | none => (none, s)

/-- The answers to several requests, one after the other. -/
def answers (s : Session) : List Request → List (Option (Except Error Answer))
  | [] => []
  | x :: xs => (s.request x).1 :: (s.request x).2.answers xs

end Session

/-! ## The reference -/

/-- An engine that has no cache. -/
structure Reference where
  /-- How texts are read. -/
  dialect : Dialect
  /-- The rules that have been handed out, by number. -/
  rules : List Rule := []

namespace Reference

/-- The new reference of a configuration. -/
def ofConfig (config : Config) : Reference := { dialect := config.dialect }

/-- Hands out a rule. -/
def handOut (ref : Reference) (r : Rule) : Option (Except Error Answer) × Reference :=
  (some (.ok (.rule r)), { ref with rules := ref.rules ++ [r] })

/-- Answers a request. -/
def request (ref : Reference) : Request → Option (Except Error Answer) × Reference
  | .parse t =>
    match ref.dialect.parse t with
    | .ok r => ref.handOut r
    | .error e => (some (.error (.malformed e)), ref)
  | .combine numbers =>
    match numbers.mapM fun n => ref.rules[n]? with
    | none => (none, ref)
    | some rules =>
      match Rule.combine? rules with
      | some r => ref.handOut r
      | none => (some (.error .noRules), ref)
  | .evaluate number r => (ref.rules[number]?.map fun rule => .ok (.verdict (rule.holds r)), ref)
  | .report number r => (ref.rules[number]?.map fun rule => .ok (.report (rule.report r)), ref)
  | .check t r =>
    match ref.dialect.parse t with
    | .ok rule => (some (.ok (.verdict (rule.holds r))), ref)
    | .error e => (some (.error (.malformed e)), ref)
  | .clear => (some (.ok .done), ref)

/-- The answers to several requests, one after the other. -/
def answers (ref : Reference) : List Request → List (Option (Except Error Answer))
  | [] => []
  | x :: xs => (ref.request x).1 :: (ref.request x).2.answers xs

end Reference

/-! ## In step -/

namespace Session

/-- Whether a session and a reference are in step. -/
structure Agrees (s : Session) (ref : Reference) : Prop where
  /-- The session reads texts as the reference does. -/
  dialect_eq : s.engine.cache.dialect = ref.dialect
  /-- What the session keeps is what the texts are read as. -/
  sound : s.engine.cache.Sound
  /-- The trees handed out are the rules handed out. -/
  rules_eq : s.trees.map SharedRule.rule = ref.rules

theorem agrees_ofConfig (config : Config) : (ofConfig config).Agrees (Reference.ofConfig config) :=
  ⟨rfl, Cache.sound_of_isEmpty rfl, rfl⟩

/-- Whether a request gets the same answer from a session and from a reference,
and leaves them in step. -/
def Corresponds (s : Session) (ref : Reference) (x : Request) : Prop :=
  (s.request x).1 = (ref.request x).1 ∧ (s.request x).2.Agrees (ref.request x).2

variable {s : Session} {ref : Reference}

/-- A request corresponds if the step it asks for succeeds as it does in the
reference and leaves the two in step. -/
theorem corresponds_of_ok {x : Request} {step : Step} {next : Session} {ref' : Reference}
    (outcome : Outcome) (hstep : x.step? s.trees = some step)
    (hattempt : s.attempt step = .ok (outcome, next)) (hnext : next.Agrees ref')
    (href : ref.request x = (some (.ok outcome.answer), ref')) : s.Corresponds ref x := by
  have hrequest : s.request x
      = (some (.ok outcome.answer), { next with time := s.time + 1 }) := by
    simp only [request, hstep, Session.step, hattempt, Except.map]
  unfold Corresponds
  rw [hrequest, href]
  exact ⟨rfl, hnext.dialect_eq, hnext.sound, hnext.rules_eq⟩

/-- A request corresponds if the step it asks for fails as it does in the
reference, for then nothing but the time changes. -/
theorem Agrees.corresponds_of_error (h : s.Agrees ref) {x : Request} {step : Step} {e : Error}
    (hstep : x.step? s.trees = some step) (hattempt : s.attempt step = .error e)
    (href : ref.request x = (some (.error e), ref)) : s.Corresponds ref x := by
  have hrequest : s.request x = (some (.error e), { s with time := s.time + 1 }) := by
    simp only [request, hstep, Session.step, hattempt, Except.map]
  unfold Corresponds
  rw [hrequest, href]
  exact ⟨rfl, h.dialect_eq, h.sound, h.rules_eq⟩

/-- A request corresponds if it names a tree that was not handed out. -/
theorem Agrees.corresponds_of_none (h : s.Agrees ref) {x : Request}
    (hstep : x.step? s.trees = none) (href : ref.request x = (none, ref)) :
    s.Corresponds ref x := by
  have hrequest : s.request x = (none, s) := by simp only [request, hstep]
  unfold Corresponds
  rw [hrequest, href]
  exact ⟨rfl, h⟩

/-! ## Requests -/

/-- The rule of a number is that of its tree. -/
theorem Agrees.rule_of_number (h : s.Agrees ref) (number : Nat) :
    ref.rules[number]? = s.trees[number]?.map SharedRule.rule := by
  rw [← h.rules_eq, List.getElem?_map]

/-- The rules of several numbers are those of their trees. -/
theorem Agrees.rules_of_numbers (h : s.Agrees ref) (numbers : List Nat) :
    (numbers.mapM fun n => ref.rules[n]?)
      = (numbers.mapM fun n => s.trees[n]?).map (List.map SharedRule.rule) := by
  induction numbers with
  | nil => rfl
  | cons n numbers ih =>
    rw [List.mapM_cons, List.mapM_cons, ih, h.rule_of_number]
    cases s.trees[n]? with
    | none => rfl
    | some tree => cases numbers.mapM fun n => s.trees[n]? <;> rfl

/-- A session that goes on with another cache is in step if that cache is. -/
theorem Agrees.with_cache (h : s.Agrees ref) {cache : Cache} (hsound : cache.Sound)
    (hdialect : cache.dialect = s.engine.cache.dialect) :
    Agrees { s with engine := { s.engine with cache } } ref :=
  ⟨hdialect.trans h.dialect_eq, hsound, h.rules_eq⟩

/-- A tree that is handed out keeps a session in step with a reference that
hands out its rule. -/
theorem Agrees.handOut (h : s.Agrees ref) (tree : SharedRule) :
    (s.handOut tree).2.Agrees (ref.handOut tree.rule).2 := by
  refine ⟨h.dialect_eq, h.sound, ?_⟩
  show (s.trees ++ [tree]).map SharedRule.rule = ref.rules ++ [tree.rule]
  rw [List.map_append, h.rules_eq]
  rfl

/-- A request to hand out a tree corresponds if the reference hands out its
rule. -/
theorem corresponds_of_handOut {x : Request} {step : Step} {next : Session} (tree : SharedRule)
    (hstep : x.step? s.trees = some step) (hattempt : s.attempt step = .ok (next.handOut tree))
    (hnext : next.Agrees ref) (href : ref.request x = ref.handOut tree.rule) :
    s.Corresponds ref x :=
  corresponds_of_ok _ hstep hattempt (hnext.handOut tree) href

/-- A request about the tree of a number corresponds if its answer depends on
the rule of the tree alone. -/
theorem Agrees.corresponds_of_number (h : s.Agrees ref) {x : Request} {number : Nat}
    {step : SharedRule → Step} (outcome : Rule → Outcome)
    (hstep : x.step? s.trees = s.trees[number]?.map step)
    (hattempt : ∀ tree, s.attempt (step tree) = .ok (outcome tree.rule, s))
    (href : ref.request x
      = (ref.rules[number]?.map fun rule => .ok (outcome rule).answer, ref)) :
    s.Corresponds ref x := by
  rw [h.rule_of_number] at href
  cases htree : s.trees[number]? with
  | none =>
    rw [htree] at hstep href
    exact h.corresponds_of_none hstep href
  | some tree =>
    rw [htree] at hstep href
    exact corresponds_of_ok _ hstep (hattempt tree) h href

theorem Agrees.parse (h : s.Agrees ref) (t : Text) : s.Corresponds ref (.parse t) := by
  obtain ⟨rule, next, hfetch, hparse, hsound, hdialect⟩ | ⟨e, hfetch, hparse⟩ :=
    h.sound.fetch_cases s.time t
  · rw [h.dialect_eq] at hparse
    refine corresponds_of_handOut rule rfl ?_ (h.with_cache hsound hdialect) ?_
    · simp only [attempt, Engine.parse, hfetch]
      rfl
    · simp only [Reference.request, hparse]
  · rw [h.dialect_eq] at hparse
    refine h.corresponds_of_error (e := .malformed e) rfl ?_ ?_
    · simp only [attempt, Engine.parse, hfetch]
      rfl
    · simp only [Reference.request, hparse]

theorem Agrees.check (h : s.Agrees ref) (t : Text) (r : Record) :
    s.Corresponds ref (.check t r) := by
  obtain ⟨rule, next, hfetch, hparse, hsound, hdialect⟩ | ⟨e, hfetch, hparse⟩ :=
    h.sound.fetch_cases s.time t
  · rw [h.dialect_eq] at hparse
    refine corresponds_of_ok (.verdict (rule.rule.holds r)) rfl ?_
      (h.with_cache hsound hdialect) ?_
    · simp only [attempt, Engine.check, Engine.parse, hfetch]
      rfl
    · simp only [Reference.request, hparse]
      rfl
  · rw [h.dialect_eq] at hparse
    refine h.corresponds_of_error (e := .malformed e) rfl ?_ ?_
    · simp only [attempt, Engine.check, Engine.parse, hfetch]
      rfl
    · simp only [Reference.request, hparse]

/-- Combining trees combines their rules. -/
theorem combine?_trees (stamp : Nat) (trees : List SharedRule) :
    (Engine.combine? stamp trees).map SharedRule.rule
      = Rule.combine? (trees.map SharedRule.rule) := by
  match trees with
  | [] => rfl
  | [tree] => rfl
  | first :: second :: others => rfl

theorem Agrees.combine (h : s.Agrees ref) (numbers : List Nat) :
    s.Corresponds ref (.combine numbers) := by
  have hrules := h.rules_of_numbers numbers
  cases htrees : numbers.mapM fun n => s.trees[n]? with
  | none =>
    rw [htrees] at hrules
    refine h.corresponds_of_none ?_ ?_
    · simp only [Request.step?, htrees, Option.map_none]
    · simp only [Reference.request, hrules, Option.map_none]
  | some trees =>
    rw [htrees] at hrules
    have hstep : (Request.combine numbers).step? s.trees = some (.combine trees) := by
      simp only [Request.step?, htrees, Option.map_some]
    have hcombine := combine?_trees s.time trees
    cases htree : Engine.combine? s.time trees with
    | none =>
      rw [htree] at hcombine
      refine h.corresponds_of_error hstep (e := .noRules) ?_ ?_
      · simp only [attempt, htree]
      · simp only [Reference.request, hrules, Option.map_some, ← hcombine, Option.map_none]
    | some tree =>
      rw [htree] at hcombine
      refine corresponds_of_handOut tree hstep ?_ h ?_
      · simp only [attempt, htree]
      · simp only [Reference.request, hrules, Option.map_some, ← hcombine]

theorem Agrees.evaluate (h : s.Agrees ref) (number : Nat) (r : Record) :
    s.Corresponds ref (.evaluate number r) :=
  h.corresponds_of_number (fun rule => .verdict (rule.holds r)) rfl (fun _ => rfl) rfl

theorem Agrees.report (h : s.Agrees ref) (number : Nat) (r : Record) :
    s.Corresponds ref (.report number r) :=
  h.corresponds_of_number (fun rule => .report (rule.report r)) rfl (fun _ => rfl) rfl

theorem Agrees.clear (h : s.Agrees ref) : s.Corresponds ref .clear :=
  corresponds_of_ok .done rfl rfl (h.with_cache (Cache.sound_of_isEmpty rfl) rfl) rfl

/-- **Every request gets the same answer from a session and from a reference in
step with it**, and leaves them in step. -/
theorem Agrees.request (h : s.Agrees ref) (x : Request) : s.Corresponds ref x := by
  cases x with
  | parse t => exact h.parse t
  | combine numbers => exact h.combine numbers
  | evaluate number r => exact h.evaluate number r
  | report number r => exact h.report number r
  | check t r => exact h.check t r
  | clear => exact h.clear

theorem Agrees.answers_eq (h : s.Agrees ref) (requests : List Request) :
    s.answers requests = ref.answers requests := by
  induction requests generalizing s ref with
  | nil => rfl
  | cons x requests ih =>
    obtain ⟨hanswer, hnext⟩ := h.request x
    rw [answers, Reference.answers, hanswer, ih hnext]

/-- **The cache of a session cannot be seen.** Whatever is asked of a new
session, in any order and number, is answered as if there were no cache and
every text were read anew; and so the answers do not depend on the capacity. -/
theorem answers_eq_reference (config : Config) (requests : List Request) :
    (ofConfig config).answers requests = (Reference.ofConfig config).answers requests
      ∧ ∀ capacity, (ofConfig { config with capacity }).answers requests
          = (ofConfig config).answers requests := by
  have h : ∀ config', (ofConfig config').answers requests
      = (Reference.ofConfig config').answers requests := fun config' =>
    (agrees_ofConfig config').answers_eq requests
  refine ⟨h config, fun capacity => ?_⟩
  rw [h, h]
  rfl

end Session

end AttributeRules
