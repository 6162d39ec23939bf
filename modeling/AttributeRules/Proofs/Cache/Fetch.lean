import AttributeRules.Cache

/-!
# What a cache answers

A text that is asked for is kept already, is read anew, or is no rule, and
`Cache.fetch_cases` says what the cache answers and becomes in each case. Of
these only a text that is read anew can change the cache, and it does so only
while there is room (`Cache.keep_cases`).

A cache is **sound** if everything it keeps is what its dialect reads the text
as. Soundness is kept by every answer, and a sound cache answers what the
dialect answers (`Cache.Sound.fetch_cases`): the rule, or the error, is the
same whether the text was kept or not.
-/

namespace AttributeRules

namespace Cache

/-! ## Keys -/

/-- The texts that are kept, the first first. -/
def keys (c : Cache) : List Text := c.entries.map Prod.fst

theorem length_keys (c : Cache) : c.keys.length = c.size := List.length_map ..

/-- A text that is not kept has no rule in the cache. -/
theorem lookup_eq_none_iff {c : Cache} {t : Text} : c.entries.lookup t = none ↔ t ∉ c.keys := by
  unfold keys
  rw [List.lookup_eq_none_iff, List.mem_map]
  constructor
  · rintro h ⟨p, hp, rfl⟩
    exact absurd (h p hp) (by simp)
  · intro h p hp
    exact bne_iff_ne.2 fun heq => h ⟨p, hp, heq.symm⟩

/-- A rule that is found for a text is kept for it. -/
theorem mem_entries_of_lookup {c : Cache} {t : Text} {rule : SharedRule}
    (h : c.entries.lookup t = some rule) : (t, rule) ∈ c.entries := by
  obtain ⟨before, after, hsplit, -⟩ := List.lookup_eq_some_iff.1 h
  rw [hsplit]
  exact List.mem_append_right _ (List.mem_cons_self ..)

theorem mem_keys_of_mem_entries {c : Cache} {t : Text} {rule : SharedRule}
    (h : (t, rule) ∈ c.entries) : t ∈ c.keys :=
  List.mem_map_of_mem h

/-! ## Answers -/

/-- **A rule is kept if there is room, and otherwise the cache stays as it
is.** -/
theorem keep_cases (c : Cache) (t : Text) (rule : SharedRule) :
    (c.size < c.capacity ∧ c.keep t rule = { c with entries := c.entries ++ [(t, rule)] })
      ∨ (c.capacity ≤ c.size ∧ c.keep t rule = c) := by
  unfold keep
  split
  · next h => exact .inl ⟨h, rfl⟩
  · next h => exact .inr ⟨Nat.le_of_not_lt h, rfl⟩

@[simp] theorem dialect_keep (c : Cache) (t : Text) (rule : SharedRule) :
    (c.keep t rule).dialect = c.dialect := by
  obtain ⟨-, h⟩ | ⟨-, h⟩ := c.keep_cases t rule <;> rw [h]

@[simp] theorem capacity_keep (c : Cache) (t : Text) (rule : SharedRule) :
    (c.keep t rule).capacity = c.capacity := by
  obtain ⟨-, h⟩ | ⟨-, h⟩ := c.keep_cases t rule <;> rw [h]

/-- **What asking for a text comes to**: the rule that is kept, a new rule that
is kept if there is room, or the error of the text. -/
theorem fetch_cases (c : Cache) (stamp : Nat) (t : Text) :
    (∃ rule, c.entries.lookup t = some rule ∧ c.fetch stamp t = .ok (rule, c))
      ∨ (t ∉ c.keys ∧ ∃ r, c.dialect.parse t = .ok r
          ∧ c.fetch stamp t = .ok (⟨stamp, r⟩, c.keep t ⟨stamp, r⟩))
      ∨ (t ∉ c.keys ∧ ∃ e, c.dialect.parse t = .error e ∧ c.fetch stamp t = .error e) := by
  unfold fetch
  cases hlookup : c.entries.lookup t with
  | some rule => exact .inl ⟨rule, rfl, rfl⟩
  | none =>
    have hkeys := lookup_eq_none_iff.1 hlookup
    cases hparse : c.dialect.parse t with
    | ok r => exact .inr (.inl ⟨hkeys, r, rfl, rfl⟩)
    | error e => exact .inr (.inr ⟨hkeys, e, rfl, rfl⟩)

/-! ## Soundness -/

/-- Whether everything that is kept is what the dialect reads the text as. -/
def Sound (c : Cache) : Prop := ∀ p ∈ c.entries, c.dialect.parse p.1 = .ok p.2.rule

theorem sound_of_isEmpty {c : Cache} (h : c.entries = []) : c.Sound := by
  unfold Sound
  rw [h]
  exact fun _ hp => nomatch hp

/-- A rule that is what its text is read as can be kept. -/
theorem Sound.keep {c : Cache} (h : c.Sound) {t : Text} {rule : SharedRule}
    (hrule : c.dialect.parse t = .ok rule.rule) : (c.keep t rule).Sound := by
  obtain ⟨-, hkeep⟩ | ⟨-, hkeep⟩ := c.keep_cases t rule
  · rw [hkeep]
    exact List.forall_mem_append.2 ⟨h, List.forall_mem_singleton.2 hrule⟩
  · rw [hkeep]
    exact h

/-- **A sound cache answers what its dialect answers**, and is sound
afterwards. -/
theorem Sound.fetch_cases {c : Cache} (h : c.Sound) (stamp : Nat) (t : Text) :
    (∃ rule next, c.fetch stamp t = .ok (rule, next) ∧ c.dialect.parse t = .ok rule.rule
        ∧ next.Sound ∧ next.dialect = c.dialect)
      ∨ ∃ e, c.fetch stamp t = .error e ∧ c.dialect.parse t = .error e := by
  obtain ⟨rule, hlookup, hfetch⟩ | ⟨-, r, hparse, hfetch⟩ | ⟨-, e, hparse, hfetch⟩ :=
    c.fetch_cases stamp t
  · exact .inl ⟨rule, c, hfetch, h _ (mem_entries_of_lookup hlookup), h, rfl⟩
  · exact .inl ⟨_, _, hfetch, hparse, h.keep hparse, dialect_keep ..⟩
  · exact .inr ⟨e, hfetch, hparse⟩

end Cache

end AttributeRules
