import AttributeRules.Proofs.Cache.Fetch

/-!
# The cache over its history

What a cache keeps, and which trees it hands out again, is determined by all
that it has been asked before: which texts were rules, in which order they
came, when the cache was full, and when it was cleared. `Cache.run` asks a
cache one thing after the other, each at its own time, and logs what came of
it. A tree that is made is stamped with the time, so trees of different times
are different trees.

The texts kept are the first distinct ones that were read since the last
clear, as many as there is room for. This holds before every call and the call
keeps it (`Cache.Remembers.call`).

A tree is handed out a second time exactly if its text was kept when it was
handed out first and nothing was cleared since. The entries at any time are
those of an earlier time, unless they were cleared, followed by new ones
(`Cache.entries_run`), and new ones bear later stamps. So a tree found at a
later time is either one of the new, which was never handed out before, or
one that was kept already.
-/

namespace AttributeRules

namespace Cache

/-! ## Calls and their log -/

/-- What a cache can be asked. -/
inductive Call where
  /-- The rule of a text. -/
  | fetch (t : Text)
  /-- To forget everything. -/
  | clear
deriving DecidableEq, Repr

/-- What came of a call. -/
inductive Event where
  /-- The text was read and its rule handed out. -/
  | read (t : Text) (rule : SharedRule)
  /-- The text is no rule. -/
  | failed (t : Text) (cause : Malformed)
  /-- Everything was forgotten. -/
  | cleared
deriving DecidableEq, Repr

/-- Asks a cache at a given time. -/
def call (c : Cache) (time : Nat) : Call → Event × Cache
  | .fetch t =>
    match c.fetch time t with
    | .ok (rule, next) => (.read t rule, next)
    | .error e => (.failed t e, c)
  | .clear => (.cleared, c.clear)

/-- Asks a cache one thing after the other, from a given time on. -/
def run (c : Cache) (time : Nat) : List Call → List Event × Cache
  | [] => ([], c)
  | x :: calls =>
    let (event, next) := c.call time x
    let (events, last) := next.run (time + 1) calls
    (event :: events, last)

/-- A new cache for a dialect. -/
def new (d : Dialect) (capacity : Nat) : Cache := { dialect := d, capacity }

/-- The texts that have been read since the last clear, after one more
event. -/
def note (texts : List Text) : Event → List Text
  | .read t _ => texts ++ [t]
  | .failed _ _ => texts
  | .cleared => []

/-- **The texts that have been read since the last clear**, in order and with
repetitions. -/
def readSinceClear (log : List Event) : List Text := log.foldl note []

theorem run_cons (c : Cache) (time : Nat) (x : Call) (calls : List Call) :
    c.run time (x :: calls)
      = ((c.call time x).1 :: ((c.call time x).2.run (time + 1) calls).1,
        ((c.call time x).2.run (time + 1) calls).2) := rfl

/-- **What asking for a text comes to**, told by the event and the cache
afterwards. -/
theorem call_fetch_cases (c : Cache) (time : Nat) (t : Text) :
    (∃ rule, c.entries.lookup t = some rule ∧ c.call time (.fetch t) = (.read t rule, c))
      ∨ (t ∉ c.keys ∧ ∃ r, c.dialect.parse t = .ok r
          ∧ c.call time (.fetch t) = (.read t ⟨time, r⟩, c.keep t ⟨time, r⟩))
      ∨ (t ∉ c.keys ∧ ∃ e, c.dialect.parse t = .error e
          ∧ c.call time (.fetch t) = (.failed t e, c)) := by
  obtain ⟨rule, hlookup, h⟩ | ⟨ht, r, hparse, h⟩ | ⟨ht, e, hparse, h⟩ := c.fetch_cases time t
  · exact .inl ⟨rule, hlookup, by simp only [call, h]⟩
  · exact .inr (.inl ⟨ht, r, hparse, by simp only [call, h]⟩)
  · exact .inr (.inr ⟨ht, e, hparse, by simp only [call, h]⟩)

/-! ## What is kept -/

theorem eraseDups_concat_of_mem {texts : List Text} {t : Text} (h : t ∈ texts) :
    (texts ++ [t]).eraseDups = texts.eraseDups := by
  rw [List.eraseDups_append]
  simp [List.removeAll, h]

theorem eraseDups_concat_of_not_mem {texts : List Text} {t : Text} (h : t ∉ texts) :
    (texts ++ [t]).eraseDups = texts.eraseDups ++ [t] := by
  rw [List.eraseDups_append]
  simp [List.removeAll, h, List.eraseDups_cons]

/-- Whether a cache keeps the first distinct ones of some texts, as many as
there is room for. -/
def Remembers (c : Cache) (texts : List Text) : Prop :=
  c.keys = texts.eraseDups.take c.capacity

theorem Remembers.size_le {c : Cache} {texts : List Text} (h : c.Remembers texts) :
    c.size ≤ c.capacity := by
  rw [← length_keys, h]
  exact List.length_take_le ..

/-- A text that is kept is one of those that have been read. -/
theorem Remembers.mem_of_mem_keys {c : Cache} {texts : List Text} (h : c.Remembers texts)
    {t : Text} (ht : t ∈ c.keys) : t ∈ texts := by
  rw [h] at ht
  exact List.mem_eraseDups.1 (List.mem_of_mem_take ht)

/-- A cache with room keeps every text that has been read. -/
theorem Remembers.keys_eq {c : Cache} {texts : List Text} (h : c.Remembers texts)
    (hroom : c.size < c.capacity) : c.keys = texts.eraseDups := by
  have hlength := congrArg List.length h
  rw [length_keys, List.length_take] at hlength
  rw [h]
  exact List.take_of_length_le (by omega)

/-- A text that is read again changes nothing about what is remembered. -/
theorem Remembers.read_again {c : Cache} {texts : List Text} (h : c.Remembers texts) {t : Text}
    (ht : t ∈ c.keys) : c.Remembers (texts ++ [t]) := by
  unfold Remembers
  rw [eraseDups_concat_of_mem (h.mem_of_mem_keys ht)]
  exact h

/-- **A new text is remembered as the last one**, or not at all if there is no
room. -/
theorem Remembers.keep {c : Cache} {texts : List Text} (h : c.Remembers texts) {t : Text}
    (ht : t ∉ c.keys) (rule : SharedRule) : (c.keep t rule).Remembers (texts ++ [t]) := by
  obtain ⟨hroom, hkeep⟩ | ⟨hfull, hkeep⟩ := c.keep_cases t rule
  · have hkeys := h.keys_eq hroom
    have hnew : t ∉ texts := by
      rw [hkeys, List.mem_eraseDups] at ht
      exact ht
    rw [hkeep]
    show (c.entries ++ [(t, rule)]).map Prod.fst = (texts ++ [t]).eraseDups.take c.capacity
    rw [eraseDups_concat_of_not_mem hnew, ← hkeys, List.map_append]
    refine (List.take_of_length_le ?_).symm
    show (c.keys ++ [t]).length ≤ c.capacity
    rw [List.length_append, length_keys]
    exact hroom
  · -- the distinct texts fill the cache already, so one more is not among the first
    have hlength := congrArg List.length h
    rw [length_keys, List.length_take] at hlength
    rw [hkeep]
    show c.keys = (texts ++ [t]).eraseDups.take c.capacity
    rw [List.eraseDups_append, List.take_append_of_le_length (by omega)]
    exact h

/-- A call changes nothing about how much room there is. -/
theorem capacity_call (c : Cache) (time : Nat) (x : Call) :
    (c.call time x).2.capacity = c.capacity := by
  cases x with
  | clear => rfl
  | fetch t =>
    obtain ⟨rule, -, hcall⟩ | ⟨-, r, -, hcall⟩ | ⟨-, e, -, hcall⟩ := c.call_fetch_cases time t
    · rw [hcall]
    · rw [hcall]
      exact capacity_keep ..
    · rw [hcall]

/-- **Every call keeps the account of what is kept.** -/
theorem Remembers.call {c : Cache} {texts : List Text} (h : c.Remembers texts) (time : Nat)
    (x : Call) : (c.call time x).2.Remembers (note texts (c.call time x).1) := by
  cases x with
  | clear =>
    show [] = ([] : List Text).eraseDups.take c.capacity
    simp
  | fetch t =>
    obtain ⟨rule, hlookup, hcall⟩ | ⟨ht, r, -, hcall⟩ | ⟨-, e, -, hcall⟩ :=
      c.call_fetch_cases time t
    · rw [hcall]
      exact h.read_again (mem_keys_of_mem_entries (mem_entries_of_lookup hlookup))
    · rw [hcall]
      exact h.keep ht _
    · rw [hcall]
      exact h

theorem Remembers.run {c : Cache} {texts : List Text} (h : c.Remembers texts) (time : Nat)
    (calls : List Call) :
    (c.run time calls).2.Remembers ((c.run time calls).1.foldl note texts) := by
  induction calls generalizing c texts time with
  | nil => exact h
  | cons x calls ih => exact ih (h.call time x) (time + 1)

theorem capacity_run (c : Cache) (time : Nat) (calls : List Call) :
    (c.run time calls).2.capacity = c.capacity := by
  induction calls generalizing c time with
  | nil => rfl
  | cons x calls ih => exact (ih _ _).trans (c.capacity_call time x)

/-- A text that is no rule, one that is kept already, and one that there is no
room for change nothing. -/
theorem call_fetch_eq_self {c : Cache} {time : Nat} {t : Text}
    (h : (∃ e, (c.call time (.fetch t)).1 = .failed t e) ∨ t ∈ c.keys ∨ c.capacity ≤ c.size) :
    (c.call time (.fetch t)).2 = c := by
  obtain ⟨rule, -, hcall⟩ | ⟨ht, r, -, hcall⟩ | ⟨-, e, -, hcall⟩ := c.call_fetch_cases time t
  · rw [hcall]
  · rw [hcall]
    obtain ⟨e, hfails⟩ | hkept | hfull := h
    · rw [hcall] at hfails
      exact Event.noConfusion hfails
    · exact absurd hkept ht
    · exact if_neg (Nat.not_lt_of_le hfull)
  · rw [hcall]

/-! ## Which trees are handed out again -/

/-- **What a call leaves of the entries and adds to them**: a clear leaves
none, everything else all, and what is added bears the time as its stamp. -/
theorem entries_call (c : Cache) (time : Nat) (x : Call) :
    ∃ added, (c.call time x).2.entries
        = (if .cleared = (c.call time x).1 then [] else c.entries) ++ added
      ∧ ∀ p ∈ added, p.2.stamp = time := by
  cases x with
  | clear => exact ⟨[], rfl, by simp⟩
  | fetch t =>
    obtain ⟨rule, -, hcall⟩ | ⟨-, r, -, hcall⟩ | ⟨-, e, -, hcall⟩ := c.call_fetch_cases time t
    · rw [hcall]
      exact ⟨[], by simp, by simp⟩
    · rw [hcall]
      obtain ⟨-, hkeep⟩ | ⟨-, hkeep⟩ := c.keep_cases t ⟨time, r⟩
      · rw [hkeep]
        exact ⟨[(t, ⟨time, r⟩)], by simp, List.forall_mem_singleton.2 rfl⟩
      · rw [hkeep]
        exact ⟨[], by simp, by simp⟩
    · rw [hcall]
      exact ⟨[], by simp, by simp⟩

/-- **What a run leaves of the entries and adds to them**: all or, after a
clear, none of the old ones, and new ones whose stamps are of its own
time. -/
theorem entries_run (c : Cache) (time : Nat) (calls : List Call) :
    ∃ added, (c.run time calls).2.entries
        = (if .cleared ∈ (c.run time calls).1 then [] else c.entries) ++ added
      ∧ ∀ p ∈ added, time ≤ p.2.stamp ∧ p.2.stamp < time + calls.length := by
  induction calls generalizing c time with
  | nil => exact ⟨[], by simp [run], by simp⟩
  | cons x calls ih =>
    obtain ⟨added, hentries, hadded⟩ := c.entries_call time x
    obtain ⟨later, hlast, hlater⟩ := ih (c.call time x).2 (time + 1)
    have hstamps : ∀ p ∈ later, time ≤ p.2.stamp ∧ p.2.stamp < time + (x :: calls).length := by
      intro p hp
      have := hlater p hp
      rw [List.length_cons]
      omega
    rw [run_cons, hlast, hentries]
    by_cases hrest : .cleared ∈ ((c.call time x).2.run (time + 1) calls).1
    · exact ⟨later, by simp [hrest], hstamps⟩
    · refine ⟨added ++ later, ?_, List.forall_mem_append.2 ⟨fun p hp => ?_, hstamps⟩⟩
      · simp only [List.mem_cons, hrest, or_false, if_false, List.append_assoc]
      · have := hadded p hp
        rw [List.length_cons]
        omega

/-- A rule that is handed out was kept, or is made now and kept if there is
room. -/
theorem read_cases {c : Cache} {time : Nat} {t : Text} {rule : SharedRule}
    (h : (c.call time (.fetch t)).1 = .read t rule) :
    (c.entries.lookup t = some rule ∧ (c.call time (.fetch t)).2 = c)
      ∨ (t ∉ c.keys ∧ rule.stamp = time ∧ (c.call time (.fetch t)).2 = c.keep t rule) := by
  obtain ⟨rule', hlookup, hcall⟩ | ⟨ht, r, -, hcall⟩ | ⟨-, e, -, hcall⟩ := c.call_fetch_cases time t
  · rw [hcall] at h ⊢
    obtain ⟨-, rfl⟩ := Event.read.inj h
    exact .inl ⟨hlookup, rfl⟩
  · rw [hcall] at h ⊢
    obtain ⟨-, rfl⟩ := Event.read.inj h
    exact .inr ⟨ht, rfl, rfl⟩
  · rw [hcall] at h
    exact Event.noConfusion h

/-- If the text of a rule is kept when the rule is handed out, that rule is
what is kept for it. -/
theorem lookup_of_read {c : Cache} {time : Nat} {t : Text} {rule : SharedRule}
    (h : (c.call time (.fetch t)).1 = .read t rule) (ht : t ∈ (c.call time (.fetch t)).2.keys) :
    (c.call time (.fetch t)).2.entries.lookup t = some rule := by
  obtain ⟨hlookup, hnext⟩ | ⟨hnew, -, hnext⟩ := read_cases h
  · rw [hnext]
    exact hlookup
  · rw [hnext] at ht ⊢
    obtain ⟨-, hkeep⟩ | ⟨-, hkeep⟩ := c.keep_cases t rule
    · rw [hkeep, List.lookup_append, lookup_eq_none_iff.2 hnew]
      simp
    · rw [hkeep] at ht
      exact absurd ht hnew

/-- **When a tree is handed out again.** A rule that is handed out for a text
at one time and the rule that is handed out for it at a later time are the same
tree exactly if nothing was cleared between and the text was kept at the first
of the two. -/
theorem stamp_eq_iff {c : Cache} {time : Nat} {t : Text} {first second : SharedRule}
    {between : List Call} (hstamps : ∀ p ∈ c.entries, p.2.stamp < time)
    (hfirst : (c.call time (.fetch t)).1 = .read t first)
    (hsecond : ((((c.call time (.fetch t)).2.run (time + 1) between).2).call
      (time + 1 + between.length) (.fetch t)).1 = .read t second) :
    first.stamp = second.stamp
      ↔ .cleared ∉ ((c.call time (.fetch t)).2.run (time + 1) between).1
        ∧ t ∈ (c.call time (.fetch t)).2.keys := by
  have hle : first.stamp ≤ time := by
    obtain ⟨hlookup, -⟩ | ⟨-, hstamp, -⟩ := read_cases hfirst
    · exact Nat.le_of_lt (hstamps _ (mem_entries_of_lookup hlookup))
    · exact Nat.le_of_eq hstamp
  obtain ⟨added, hentries, hadded⟩ := (c.call time (.fetch t)).2.entries_run (time + 1) between
  constructor
  · intro heq
    obtain ⟨hlookup, -⟩ | ⟨-, hstamp, -⟩ := read_cases hsecond
    · have hmem := mem_entries_of_lookup hlookup
      rw [hentries] at hmem
      obtain hold | hnew := List.mem_append.1 hmem
      · split at hold
        · exact nomatch hold
        · next hclear => exact ⟨hclear, mem_keys_of_mem_entries hold⟩
      · -- an entry that was added after the first time bears a later stamp
        have hlater : time + 1 ≤ second.stamp := (hadded _ hnew).1
        omega
    · omega
  · rintro ⟨hclear, ht⟩
    have hlookup := lookup_of_read hfirst ht
    rw [if_neg hclear] at hentries
    have hkept : ((c.call time (.fetch t)).2.run (time + 1) between).2.entries.lookup t
        = some first := by
      rw [hentries, List.lookup_append, hlookup]
      rfl
    obtain ⟨hlookup', -⟩ | ⟨hnew, -⟩ := read_cases hsecond
    · rw [Option.some.inj (hkept.symm.trans hlookup')]
    · exact absurd (mem_keys_of_mem_entries (mem_entries_of_lookup hkept)) hnew

/-! ## The whole history -/

/-- The last call of a run is asked of what the others leave. -/
theorem run_concat (c : Cache) (time : Nat) (calls : List Call) (x : Call) :
    (c.run time (calls ++ [x])).2 = ((c.run time calls).2.call (time + calls.length) x).2 := by
  induction calls generalizing c time with
  | nil => rfl
  | cons y calls ih =>
    rw [List.cons_append, run_cons, run_cons, ih, List.length_cons, Nat.add_comm calls.length,
      Nat.add_assoc]

/-- The first event of a log is that of the first call. -/
theorem exists_cons_of_run {c : Cache} {time : Nat} {calls : List Call} {event : Event}
    {events : List Event} (h : (c.run time calls).1 = event :: events) :
    ∃ x later, calls = x :: later ∧ (c.call time x).1 = event
      ∧ ((c.call time x).2.run (time + 1) later).1 = events := by
  cases calls with
  | nil => exact nomatch h
  | cons x later =>
    obtain ⟨hevent, hevents⟩ := List.cons.inj h
    exact ⟨x, later, rfl, hevent, hevents⟩

/-- The first part of a log is that of the first calls. -/
theorem exists_append_of_run {c : Cache} {time : Nat} {calls : List Call}
    {before after : List Event} (h : (c.run time calls).1 = before ++ after) :
    ∃ earlier later, calls = earlier ++ later ∧ earlier.length = before.length
      ∧ (c.run time earlier).1 = before
      ∧ ((c.run time earlier).2.run (time + earlier.length) later).1 = after := by
  induction before generalizing c time calls with
  | nil => exact ⟨[], calls, rfl, rfl, rfl, h⟩
  | cons event before ih =>
    obtain ⟨x, later, rfl, hevent, hlater⟩ := exists_cons_of_run h
    obtain ⟨earlier, later, rfl, hlength, hbefore, hafter⟩ := ih hlater
    refine ⟨x :: earlier, later, rfl, congrArg (· + 1) hlength, ?_, ?_⟩
    · rw [run_cons, hevent, hbefore]
    · rw [run_cons, List.length_cons, Nat.add_comm earlier.length, ← Nat.add_assoc]
      exact hafter

/-- Only a fetch of a text hands out a rule for it. -/
theorem eq_fetch_of_call {c : Cache} {time : Nat} {x : Call} {t : Text} {rule : SharedRule}
    (h : (c.call time x).1 = .read t rule) : x = .fetch t := by
  cases x with
  | clear => exact Event.noConfusion h
  | fetch t' =>
    obtain ⟨_, -, hcall⟩ | ⟨-, _, -, hcall⟩ | ⟨-, _, -, hcall⟩ := c.call_fetch_cases time t'
    · rw [hcall] at h
      rw [(Event.read.inj h).1]
    · rw [hcall] at h
      rw [(Event.read.inj h).1]
    · rw [hcall] at h
      exact Event.noConfusion h

theorem remembers_new (d : Dialect) (capacity : Nat) : (new d capacity).Remembers [] := by
  show [] = ([] : List Text).eraseDups.take capacity
  simp

/-- A new cache that has been asked some things has stamps of past times
only. -/
theorem stamp_lt_of_mem_run_new {d : Dialect} {capacity : Nat} {calls : List Call} :
    ∀ p ∈ ((new d capacity).run 0 calls).2.entries, p.2.stamp < calls.length := by
  obtain ⟨added, hentries, hadded⟩ := (new d capacity).entries_run 0 calls
  have hall : ((new d capacity).run 0 calls).2.entries = added := by
    rw [hentries, show (new d capacity).entries = [] from rfl, ite_self, List.nil_append]
  intro p hp
  rw [hall] at hp
  have hstamp := (hadded p hp).2
  rwa [Nat.zero_add] at hstamp

/-- **What a cache keeps and which trees it shares, over every run.** After
any calls of a new cache the texts kept are the first distinct ones that were
read since the last clear, as many as there is room for. A text that is no rule,
one that is kept already, and one that there is no room for change nothing. And
of two rules handed out for one text in the log of the run, the second is the
same tree as the first exactly if nothing was cleared between and the text was
kept right after the first. -/
theorem keys_run_and_stamp_eq_iff (d : Dialect) (capacity : Nat) (calls : List Call) :
    ((new d capacity).run 0 calls).2.keys
        = (readSinceClear ((new d capacity).run 0 calls).1).eraseDups.take capacity
      ∧ ((new d capacity).run 0 calls).2.size ≤ capacity
      ∧ (∀ time t, (∃ e, (((new d capacity).run 0 calls).2.call time (.fetch t)).1 = .failed t e)
            ∨ t ∈ ((new d capacity).run 0 calls).2.keys
            ∨ ((new d capacity).run 0 calls).2.size = capacity →
          (((new d capacity).run 0 calls).2.call time (.fetch t)).2
            = ((new d capacity).run 0 calls).2)
      ∧ ∀ before between after t first second,
          ((new d capacity).run 0 calls).1
              = before ++ .read t first :: (between ++ .read t second :: after) →
            (first.stamp = second.stamp
              ↔ .cleared ∉ between
                ∧ t ∈ ((new d capacity).run 0 (calls.take (before.length + 1))).2.keys) := by
  have hkept := (remembers_new d capacity).run 0 calls
  have hcapacity : ((new d capacity).run 0 calls).2.capacity = capacity := capacity_run ..
  have hsize := hkept.size_le
  unfold Remembers at hkept
  rw [hcapacity] at hkept hsize
  refine ⟨hkept, hsize, fun time t h => call_fetch_eq_self ?_, ?_⟩
  · obtain hfails | hkeys | hfull := h
    · exact .inl hfails
    · exact .inr (.inl hkeys)
    · exact .inr (.inr (Nat.le_of_eq (hcapacity.trans hfull.symm)))
  · intro before between after t first second hlog
    -- the log is taken apart at its two events, and the calls with it
    obtain ⟨earlier, later, rfl, hlength, -, hlater⟩ := exists_append_of_run hlog
    obtain ⟨x, later, rfl, hfirst, hlater⟩ := exists_cons_of_run hlater
    obtain rfl := eq_fetch_of_call hfirst
    obtain ⟨middle, later, rfl, -, hbetween, hlater⟩ := exists_append_of_run hlater
    obtain ⟨y, later, rfl, hsecond, -⟩ := exists_cons_of_run hlater
    obtain rfl := eq_fetch_of_call hsecond
    rw [Nat.zero_add] at hfirst hsecond hbetween
    have htake : (earlier ++ .fetch t :: (middle ++ .fetch t :: later)).take (before.length + 1)
        = earlier ++ [.fetch t] := by
      rw [← hlength, List.take_length_add_append]
      rfl
    rw [htake, run_concat, Nat.zero_add, ← hbetween]
    exact stamp_eq_iff stamp_lt_of_mem_run_new hfirst hsecond

/-- With room for one text the first is kept and handed out as the same tree
again, up to a clear; the second is read anew each time, and takes the place
of the first after the clear. -/
theorem keys_run_capacity_one :
    let a := "a > 1".toList
    let b := "b > 2".toList
    let calls := [.fetch a, .fetch b, .fetch a, .fetch b, .clear, .fetch b, .fetch a]
    ∃ a₀ b₁ a₂ b₃ b₅ a₆ : SharedRule,
      ((new {} 1).run 0 calls).1
          = [.read a a₀, .read b b₁, .read a a₂, .read b b₃, .cleared, .read b b₅, .read a a₆]
        ∧ ((new {} 1).run 0 calls).2.keys = [b]
        ∧ a₀.stamp = a₂.stamp ∧ b₁.stamp ≠ b₃.stamp ∧ a₀.stamp ≠ a₆.stamp := by
  intro a b calls
  let r : Rule := .operand ⟨"a".toList, .greater, .bare "1".toList⟩
  let r' : Rule := .operand ⟨"b".toList, .greater, .bare "2".toList⟩
  have hlog : ((new {} 1).run 0 calls).1
      = [.read a ⟨0, r⟩, .read b ⟨1, r'⟩, .read a ⟨0, r⟩, .read b ⟨3, r'⟩, .cleared,
        .read b ⟨5, r'⟩, .read a ⟨6, r⟩] := by decide +kernel
  obtain ⟨hkeys, -, -, hshared⟩ := keys_run_and_stamp_eq_iff {} 1 calls
  refine ⟨_, _, _, _, _, _, hlog, ?_, ?_, ?_, ?_⟩
  · rw [hkeys, hlog]
    decide +kernel
  · exact (hshared [] [_] _ a _ _ hlog).2 (by decide +kernel)
  · rw [Ne, hshared [_] [_] _ b _ _ hlog]
    decide +kernel
  · rw [Ne, hshared [] [_, _, _, _, _] _ a _ _ hlog]
    decide +kernel

end Cache

end AttributeRules
