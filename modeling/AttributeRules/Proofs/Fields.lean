import Mathlib.Data.List.Induction
import AttributeRules.Fields

/-!
# Fields in the order of their names

That fields have one entry for each name, and have them in the order of the
names, is nothing their type says. It is what inserting a name keeps
(`Fields.Ascending.insert`), so it holds of all fields that were collected from
entries in any order (`Fields.ascending_ofEntries`). Where it holds, a name has
the value that it is listed with (`Fields.get?_eq_some_iff`), and collecting the
entries once more gives the same fields (`Fields.ofEntries_eq_self`).
-/

namespace AttributeRules

namespace Fields

variable {α : Type} {fields : Fields α} {name : Text}

/-- **Whether names ascend** from each field to the next. -/
def Ascending (fields : Fields α) : Prop := fields.Pairwise fun a b => a.1 < b.1

instance (fields : Fields α) : Decidable fields.Ascending :=
  inferInstanceAs (Decidable (fields.Pairwise _))

/-! ## Inserting -/

/-- After an insertion there is the new entry and none that was not there
before. -/
theorem mem_of_mem_insert {value : α} {entry : Text × α} (h : entry ∈ fields.insert name value) :
    entry = (name, value) ∨ entry ∈ fields := by
  induction fields with
  | nil => exact .inl (List.mem_singleton.1 h)
  | cons first rest ih =>
    rw [insert] at h
    split at h
    · exact List.mem_cons.1 h
    · split at h
      · exact (List.mem_cons.1 h).imp_right (List.mem_cons_of_mem _)
      · obtain rfl | h := List.mem_cons.1 h
        · exact .inr (List.mem_cons_self ..)
        · exact (ih h).imp_right (List.mem_cons_of_mem _)

/-- **Inserting a name keeps the order of the names.** -/
theorem Ascending.insert (h : fields.Ascending) (name : Text) (value : α) :
    (fields.insert name value).Ascending := by
  induction fields with
  | nil => exact List.pairwise_singleton ..
  | cons first rest ih =>
    obtain ⟨hfirst, hrest⟩ := List.pairwise_cons.1 h
    rw [Fields.insert]
    split
    · next hlt =>
      refine List.pairwise_cons.2 ⟨List.forall_mem_cons.2 ⟨hlt, fun entry hentry => ?_⟩, h⟩
      exact List.lt_trans hlt (hfirst entry hentry)
    · next hge =>
      split
      · next heq =>
        subst heq
        exact List.pairwise_cons.2 ⟨hfirst, hrest⟩
      · next hne =>
        refine List.pairwise_cons.2 ⟨fun entry hentry => ?_, ih hrest⟩
        obtain rfl | hentry := mem_of_mem_insert hentry
        · by_contra hle
          exact hne (Std.Trichotomous.trichotomous _ _ hge hle)
        · exact hfirst entry hentry

/-- A name greater than all others comes last. -/
theorem insert_eq_concat (h : ∀ entry ∈ fields, entry.1 < name) (value : α) :
    fields.insert name value = fields ++ [(name, value)] := by
  induction fields with
  | nil => rfl
  | cons first rest ih =>
    obtain ⟨hfirst, hrest⟩ := List.forall_mem_cons.1 h
    have hne : name ≠ first.1 := by
      rintro rfl
      exact List.lt_irrefl _ hfirst
    rw [insert, if_neg (List.lt_asymm hfirst), if_neg hne, ih hrest]
    rfl

/-! ## Collecting -/

/-- The last of several entries is inserted last. -/
theorem ofEntries_concat (entries : List (Text × α)) (entry : Text × α) :
    ofEntries (entries ++ [entry]) = (ofEntries entries).insert entry.1 entry.2 :=
  List.foldl_append

/-- **The names of collected fields ascend.** -/
theorem ascending_ofEntries (entries : List (Text × α)) : (ofEntries entries).Ascending := by
  induction entries using List.reverseRecOn with
  | nil => exact List.Pairwise.nil
  | append_singleton entries entry ih =>
    rw [ofEntries_concat]
    exact ih.insert entry.1 entry.2

/-- **Collecting entries whose names ascend changes nothing.** -/
theorem ofEntries_eq_self {entries : List (Text × α)} (h : Ascending entries) :
    ofEntries entries = entries := by
  induction entries using List.reverseRecOn with
  | nil => rfl
  | append_singleton entries entry ih =>
    obtain ⟨hentries, -, hlast⟩ := List.pairwise_append.1 h
    rw [ofEntries_concat, ih hentries]
    exact insert_eq_concat (fun other hother => hlast other hother entry (by simp)) entry.2

/-! ## Looking up -/

/-- **A name has the value that it is listed with.** -/
theorem get?_eq_some_iff (h : fields.Ascending) {value : α} :
    fields.get? name = some value ↔ (name, value) ∈ fields := by
  unfold get?
  rw [List.lookup_eq_some_iff]
  constructor
  · rintro ⟨before, after, rfl, -⟩
    exact List.mem_append_right _ (List.mem_cons_self ..)
  · intro hmem
    obtain ⟨before, after, rfl⟩ := List.append_of_mem hmem
    refine ⟨before, after, rfl, fun entry hentry => ?_⟩
    have hlt : entry.1 < name :=
      (List.pairwise_append.1 h).2.2 entry hentry (name, value) (List.mem_cons_self ..)
    rw [bne_iff_ne]
    rintro rfl
    exact List.lt_irrefl _ hlt

end Fields

end AttributeRules
