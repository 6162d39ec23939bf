import Mathlib.Data.List.Forall2
import AttributeRules.Proofs.Binary64.Nearest
import AttributeRules.Proofs.Fields
import AttributeRules.Record.Json

/-!
# What is read as a record

The members of a JSON object are read one after the other, and the first that
cannot be the value of an attribute ends the reading: there is a record of all
members or none at all.

Which JSON values can be values of attributes, and which attribute they are, is
said once and for all by `Json.StandsFor`. Two readers have to agree on it. The
one for records goes by the kind of the JSON value; the one for single values
tries an integer, a number and a text in turn. Both give what the value stands
for (`Json.StandsFor.read`) and refuse what stands for nothing, which is
everything but numbers and strings (`Json.refused_of_not_supported`).

An object is read in the order of its names, so the member that ends the reading
is the unsupported one with the least name (`Json.HasFault`).
-/

namespace AttributeRules

/-! ## Integers of sixty-four bits -/

theorem int64?_eq_some_iff {n : Int} {m : Int64} : int64? n = some m ↔ m.toInt = n := by
  unfold int64?
  rw [Option.ite_none_right_eq_some]
  constructor
  · rintro ⟨hfits, hm⟩
    rw [← Option.some.inj hm]
    exact hfits
  · rintro rfl
    rw [Int64.ofInt_toInt]
    exact ⟨rfl, rfl⟩

/-- The integers that do not fit sixty-four bits. -/
theorem int64?_eq_none_iff {n : Int} :
    int64? n = none ↔ n < Int64.minValue.toInt ∨ Int64.maxValue.toInt < n := by
  rw [Option.eq_none_iff_forall_ne_some, Int64.toInt_minValue, Int64.toInt_maxValue]
  constructor
  · intro h
    by_contra hfits
    exact h (Int64.ofInt n)
      (int64?_eq_some_iff.2 (Int64.toInt_ofInt_of_le (by omega) (by omega)))
  · intro hout m hm
    have hn := int64?_eq_some_iff.1 hm
    have hlow := m.le_toInt
    have hhigh := m.toInt_lt
    omega

/-! ## Values of attributes -/

namespace Json

/-- **The value of an attribute that a JSON value stands for.** An integer stands
for itself where sixty-four bits hold it. All other numbers stand for floating
point, the integers among them after rounding (`StandsFor.isNearest`). -/
inductive StandsFor : Json → Value → Prop
  /-- An integer of sixty-four bits. -/
  | integer (n : Int64) : StandsFor (.number (.integer n.toInt)) (.integer n)
  /-- Any other integer. -/
  | rounded {n : Int} (h : n < Int64.minValue.toInt ∨ Int64.maxValue.toInt < n) :
      StandsFor (.number (.integer n)) (.float (Binary64.ofInt n))
  /-- A number that is given as floating point. -/
  | float (x : Binary64) : StandsFor (.number (.float x)) (.float x)
  /-- A string. -/
  | text (t : Text) : StandsFor (.string t) (.text t)

/-- **An integer that stands for floating point stands for the nearest value.** -/
theorem StandsFor.isNearest {n : Int} {x : Binary64}
    (h : (number (.integer n)).StandsFor (.float x)) : x.IsNearest n := by
  cases h with
  | rounded => exact Binary64.isNearest_ofInt n

/-- Whether a JSON value can be the value of an attribute: it is a number or a
string. -/
def Supported (j : Json) : Prop := j.kind = .number ∨ j.kind = .string

instance (j : Json) : Decidable j.Supported := inferInstanceAs (Decidable (_ ∨ _))

theorem exists_standsFor_iff {j : Json} : (∃ v, j.StandsFor v) ↔ j.Supported := by
  constructor
  · rintro ⟨v, h⟩
    cases h with
    | text t => exact .inr rfl
    | _ => exact .inl rfl
  · intro h
    cases j with
    | number n =>
      cases n with
      | integer n =>
        cases hn : AttributeRules.int64? n with
        | some m =>
          obtain rfl := int64?_eq_some_iff.1 hn
          exact ⟨_, .integer m⟩
        | none => exact ⟨_, .rounded (int64?_eq_none_iff.1 hn)⟩
      | float x => exact ⟨_, .float x⟩
    | string t => exact ⟨_, .text t⟩
    | _ => exact absurd h (by simp [Supported, kind])

/-- **Both readers give what a JSON value stands for.** -/
theorem StandsFor.read {j : Json} {v : Value} (h : j.StandsFor v) :
    Value.ofJson j = .ok v ∧ ∀ name, Record.fieldValue name j = .ok v := by
  cases h with
  | integer n =>
    have hn : AttributeRules.int64? n.toInt = some n := int64?_eq_some_iff.2 rfl
    simp [Value.ofJson, Record.fieldValue, int64?, hn]
  | @rounded n h =>
    have hn : AttributeRules.int64? n = none := int64?_eq_none_iff.2 h
    simp [Value.ofJson, Record.fieldValue, int64?, float?, hn]
  | float x => exact ⟨rfl, fun _ => rfl⟩
  | text t => exact ⟨rfl, fun _ => rfl⟩

/-- **Both readers refuse what is neither a number nor a string.** -/
theorem refused_of_not_supported {j : Json} (h : ¬ j.Supported) :
    Value.ofJson j = .error .noReading
      ∧ ∀ name, Record.fieldValue name j = .error (.unsupported name j.kind) := by
  cases j with
  | number n => exact absurd (.inl rfl) h
  | string t => exact absurd (.inr rfl) h
  | _ => exact ⟨rfl, fun _ => rfl⟩

/-- A JSON value stands for one value at most. -/
theorem StandsFor.unique {j : Json} {v w : Value} (hv : j.StandsFor v) (hw : j.StandsFor w) :
    v = w :=
  Except.ok.inj (hv.read.1.symm.trans hw.read.1)

/-- A single value is read as what it stands for and as nothing else. -/
theorem value_eq_ok_iff {j : Json} {v : Value} : Value.ofJson j = .ok v ↔ j.StandsFor v := by
  refine ⟨fun h => ?_, fun h => h.read.1⟩
  by_cases hj : j.Supported
  · obtain ⟨w, hw⟩ := exists_standsFor_iff.2 hj
    obtain rfl : w = v := Except.ok.inj (hw.read.1.symm.trans h)
    exact hw
  · exact absurd ((refused_of_not_supported hj).1.symm.trans h) (by simp)

/-- A single value is refused exactly if it is neither a number nor a string. -/
theorem exists_value_eq_error_iff {j : Json} :
    (∃ e, Value.ofJson j = .error e) ↔ ¬ j.Supported := by
  refine ⟨?_, fun h => ⟨_, (refused_of_not_supported h).1⟩⟩
  rintro ⟨e, he⟩ hj
  obtain ⟨v, hv⟩ := exists_standsFor_iff.2 hj
  exact absurd (hv.read.1.symm.trans he) (by simp)

/-! ## Faults -/

/-- **Why a JSON value is no record**: it is no object, or a member of it is
unsupported and no unsupported member has a smaller name. -/
inductive HasFault : Json → RecordFault → Prop
  /-- The value is of another kind. -/
  | notObject {d : Json} (h : d.kind ≠ .object) : HasFault d (.notObject d.kind)
  /-- A member has a value that is neither a number nor a string. -/
  | unsupported {members : List (Text × Json)} {name : Text} {j : Json}
      (hmem : (name, j) ∈ members) (h : ¬ j.Supported)
      (hleast : ∀ member ∈ members, ¬ member.2.Supported → ¬ member.1 < name) :
      HasFault (.object members) (.unsupported name j.kind)

/-- An object of numbers and strings has no fault. -/
theorem not_hasFault_of_supported {members : List (Text × Json)}
    (h : ∀ member ∈ members, member.2.Supported) (e : RecordFault) :
    ¬ (object members).HasFault e := by
  intro hfault
  cases hfault with
  | notObject hkind => exact hkind rfl
  | unsupported hmem hj _ => exact hj (h _ hmem)

/-- Whether the names of a JSON object ascend; of other values nothing is
asked. -/
def NamesAscend : Json → Prop
  | object members => Fields.Ascending members
  | _ => True

/-- A JSON value has at most one fault. -/
theorem HasFault.unique {d : Json} (hd : d.NamesAscend) {e e' : RecordFault} (h : d.HasFault e)
    (h' : d.HasFault e') : e = e' := by
  cases h with
  | notObject h =>
    cases h' with
    | notObject _ => rfl
    | unsupported _ _ _ => exact absurd rfl h
  | @unsupported members name j hmem h hleast =>
    cases h' with
    | notObject h' => exact absurd rfl h'
    | @unsupported _ name' j' hmem' h' hleast' =>
      obtain rfl : name = name' :=
        Std.Trichotomous.trichotomous _ _ (hleast' _ hmem h) (hleast _ hmem' h')
      have hlookup := (Fields.get?_eq_some_iff hd).2 hmem
      rw [(Fields.get?_eq_some_iff hd).2 hmem'] at hlookup
      rw [Option.some.inj hlookup]

end Json

namespace Record

/-! ## Members -/

/-- **Whether entries are what the members of an object stand for**, one after
the other and under the same names. -/
def EntriesOf (members : List (Text × Json)) (entries : List (Text × Value)) : Prop :=
  List.Forall₂ (fun member entry => member.1 = entry.1 ∧ member.2.StandsFor entry.2)
    members entries

variable {members : List (Text × Json)} {entries : List (Text × Value)}

theorem EntriesOf.supported (h : EntriesOf members entries) :
    ∀ member ∈ members, member.2.Supported := by
  induction h with
  | nil => exact fun _ h => (List.not_mem_nil h).elim
  | cons hentry _ ih =>
    exact List.forall_mem_cons.2 ⟨Json.exists_standsFor_iff.1 ⟨_, hentry.2⟩, ih⟩

theorem EntriesOf.names_eq (h : EntriesOf members entries) :
    entries.map Prod.fst = members.map Prod.fst := by
  induction h with
  | nil => rfl
  | cons hentry _ ih => rw [List.map_cons, List.map_cons, ih, hentry.1]

/-- A name is listed with a value exactly if a member of that name stands for
it. -/
theorem EntriesOf.mem_iff (h : EntriesOf members entries) {name : Text} {v : Value} :
    (name, v) ∈ entries ↔ ∃ j, (name, j) ∈ members ∧ j.StandsFor v := by
  induction h with
  | nil => simp
  | @cons member entry members entries hentry _ ih =>
    obtain ⟨hname, hstands⟩ := hentry
    simp only [List.mem_cons, Prod.ext_iff, ih]
    constructor
    · rintro (⟨rfl, rfl⟩ | ⟨j, hj, hv⟩)
      · exact ⟨member.2, .inl ⟨hname.symm, rfl⟩, hstands⟩
      · exact ⟨j, .inr hj, hv⟩
    · rintro ⟨j, ⟨rfl, rfl⟩ | hj, hv⟩
      · exact .inl ⟨hname, hv.unique hstands⟩
      · exact .inr ⟨j, hj, hv⟩

/-- Reads the members of an object one after the other. -/
def readMembers (members : List (Text × Json)) : Except RecordFault (List (Text × Value)) :=
  members.mapM fun (name, j) => do return (name, ← fieldValue name j)

theorem readMembers_cons (name : Text) (j : Json) (members : List (Text × Json)) :
    readMembers ((name, j) :: members) = do
      let v ← fieldValue name j
      let entries ← readMembers members
      return (name, v) :: entries := by
  unfold readMembers
  rw [List.mapM_cons, bind_assoc]
  rfl

/-- **All members are read, or those before the first unsupported one**, which is
then reported. -/
theorem readMembers_cases (members : List (Text × Json)) :
    (∃ entries, readMembers members = .ok entries ∧ EntriesOf members entries)
      ∨ ∃ before name j after, members = before ++ (name, j) :: after
          ∧ (∀ member ∈ before, member.2.Supported) ∧ ¬ j.Supported
          ∧ readMembers members = .error (.unsupported name j.kind) := by
  induction members with
  | nil => exact .inl ⟨[], rfl, .nil⟩
  | cons member members ih =>
    obtain ⟨name, j⟩ := member
    by_cases hj : j.Supported
    · obtain ⟨v, hv⟩ := Json.exists_standsFor_iff.2 hj
      rw [readMembers_cons, hv.read.2]
      obtain ⟨entries, hread, hentries⟩
        | ⟨before, name', j', after, rfl, hbefore, hj', hread⟩ := ih
      · refine .inl ⟨(name, v) :: entries, ?_, .cons ⟨rfl, hv⟩ hentries⟩
        rw [hread]
        rfl
      · refine .inr ⟨(name, j) :: before, name', j', after, rfl, ?_, hj', ?_⟩
        · exact List.forall_mem_cons.2 ⟨hj, hbefore⟩
        · rw [hread]
          rfl
    · refine .inr ⟨[], name, j, members, rfl, fun _ h => (List.not_mem_nil h).elim, hj, ?_⟩
      rw [readMembers_cons, (Json.refused_of_not_supported hj).2]
      rfl

/-! ## Records -/

theorem ofJson_object (members : List (Text × Json)) :
    ofJson (.object members) = (readMembers members).map ofEntries := rfl

/-- Entries of an object with ascending names are the fields of the record that
is collected from them. -/
theorem EntriesOf.get?_ofEntries (h : EntriesOf members entries)
    (hd : (Json.object members).NamesAscend) (name : Text) (v : Value) :
    (ofEntries entries).get? name = some v ↔ ∃ j, (name, j) ∈ members ∧ j.StandsFor v := by
  have hascending : Fields.Ascending entries :=
    List.pairwise_map.1 (h.names_eq ▸ List.pairwise_map.2 hd)
  rw [← h.mem_iff, get?, ofEntries, Fields.ofEntries_eq_self hascending]
  exact Fields.get?_eq_some_iff hascending

/-- In an object with ascending names the first unsupported member is that with
the least name. -/
theorem hasFault_append {before after : List (Text × Json)} {name : Text} {j : Json}
    (hd : (Json.object (before ++ (name, j) :: after)).NamesAscend)
    (hbefore : ∀ member ∈ before, member.2.Supported) (hj : ¬ j.Supported) :
    (Json.object (before ++ (name, j) :: after)).HasFault (.unsupported name j.kind) := by
  refine .unsupported (by simp) hj fun member hmember hno => ?_
  obtain hmember | hmember := List.mem_append.1 hmember
  · exact absurd (hbefore member hmember) hno
  · obtain rfl | hmember := List.mem_cons.1 hmember
    · exact List.lt_irrefl _
    · have hafter := (List.pairwise_append.1 hd).2.1
      exact List.lt_asymm ((List.pairwise_cons.1 hafter).1 member hmember)

/-- **A JSON value is read as a record of all its members, or has a fault that is
reported.** -/
theorem ofJson_cases {d : Json} (hd : d.NamesAscend) :
    (∃ members r, d = .object members ∧ (∀ member ∈ members, member.2.Supported)
        ∧ ofJson d = .ok r
        ∧ ∀ name v, r.get? name = some v ↔ ∃ j, (name, j) ∈ members ∧ j.StandsFor v)
      ∨ ∃ e, ofJson d = .error e ∧ d.HasFault e := by
  cases d with
  | object members =>
    rw [ofJson_object]
    obtain ⟨entries, hread, hentries⟩
      | ⟨before, name, j, after, rfl, hbefore, hj, hread⟩ := readMembers_cases members
    · rw [hread]
      exact .inl ⟨members, _, rfl, hentries.supported, rfl, hentries.get?_ofEntries hd⟩
    · rw [hread]
      exact .inr ⟨_, rfl, hasFault_append hd hbefore hj⟩
  | _ => exact .inr ⟨_, rfl, .notObject (by simp [Json.kind])⟩

/-- There is a record exactly of the objects of numbers and strings. -/
theorem exists_ofJson_eq_ok_iff {d : Json} (hd : d.NamesAscend) :
    (∃ r, ofJson d = .ok r)
      ↔ ∃ members, d = .object members ∧ ∀ member ∈ members, member.2.Supported := by
  obtain ⟨members, r, rfl, hsupported, hr, -⟩ | ⟨e, he, hfault⟩ := ofJson_cases hd
  · exact iff_of_true ⟨r, hr⟩ ⟨members, rfl, hsupported⟩
  · refine iff_of_false ?_ ?_
    · rintro ⟨r, hr⟩
      exact absurd (he.symm.trans hr) (by simp)
    · rintro ⟨members, rfl, hsupported⟩
      exact Json.not_hasFault_of_supported hsupported e hfault

/-- **What is reported of a JSON value that is no record is its fault.** -/
theorem ofJson_eq_error_iff {d : Json} (hd : d.NamesAscend) {e : RecordFault} :
    ofJson d = .error e ↔ d.HasFault e := by
  obtain ⟨members, r, rfl, hsupported, hr, -⟩ | ⟨e', he', hfault'⟩ := ofJson_cases hd
  · refine iff_of_false (fun he => ?_) (Json.not_hasFault_of_supported hsupported e)
    exact absurd (hr.symm.trans he) (by simp)
  · rw [he', Except.error.injEq]
    exact ⟨fun he => he ▸ hfault', fun hfault => hfault'.unique hd hfault⟩

/-- A record has the names of the object it is read from, and the values that its
members stand for. -/
theorem get?_of_ofJson {r : Record} (hd : (Json.object members).NamesAscend)
    (h : ofJson (.object members) = .ok r) (name : Text) (v : Value) :
    r.get? name = some v ↔ ∃ j, (name, j) ∈ members ∧ j.StandsFor v := by
  obtain ⟨members', r', hmembers, -, hr, hget⟩ | ⟨e, he, -⟩ := ofJson_cases hd
  · obtain rfl := Json.object.inj hmembers
    obtain rfl := Except.ok.inj (hr.symm.trans h)
    exact hget name v
  · exact absurd (he.symm.trans h) (by simp)

/-- A member is refused exactly if its value is refused on its own. -/
theorem exists_ofJson_singleton_eq_error_iff (name : Text) (j : Json) :
    (∃ e, ofJson (.object [(name, j)]) = .error e) ↔ ∃ e, Value.ofJson j = .error e := by
  have hd : (Json.object [(name, j)]).NamesAscend := List.pairwise_singleton ..
  rw [Json.exists_value_eq_error_iff]
  simp only [ofJson_eq_error_iff hd]
  constructor
  · rintro ⟨e, hfault⟩ hj
    exact Json.not_hasFault_of_supported (List.forall_mem_singleton.2 hj) e hfault
  · exact fun hj => ⟨_, .unsupported (List.mem_singleton_self _) hj
      (List.forall_mem_singleton.2 fun _ => List.lt_irrefl name)⟩

/-- **Decoding a record is exact and all or nothing.** Of a JSON value whose names
ascend there is a record exactly if it is an object of numbers and strings. The
record then has the names of the object and no others, and each of them has the
value that its member is read as on its own. In all other cases the error is the
fault of the JSON value, of which there is one. A value read on its own is what
it stands for, and it is refused exactly where it is refused as a member. -/
theorem ofJson_exact {d : Json} (hd : d.NamesAscend) :
    ((∃ r, ofJson d = .ok r)
        ↔ ∃ members, d = .object members ∧ ∀ member ∈ members, member.2.Supported)
      ∧ (∀ r members, ofJson d = .ok r → d = .object members →
        (∀ name, r.contains name = true ↔ ∃ j, (name, j) ∈ members)
          ∧ ∀ name j, (name, j) ∈ members →
            ∃ v, r.get? name = some v ∧ Value.ofJson j = .ok v)
      ∧ (∀ e, ofJson d = .error e ↔ d.HasFault e)
      ∧ ∀ j : Json, (∀ v, Value.ofJson j = .ok v ↔ j.StandsFor v)
        ∧ ∀ name, (∃ e, ofJson (.object [(name, j)]) = .error e)
          ↔ ∃ e, Value.ofJson j = .error e := by
  refine ⟨exists_ofJson_eq_ok_iff hd, ?_, fun e => ofJson_eq_error_iff hd, fun j => ?_⟩
  · rintro r members hr rfl
    obtain ⟨_, hmembers, hsupported⟩ := (exists_ofJson_eq_ok_iff hd).1 ⟨r, hr⟩
    obtain rfl := Json.object.inj hmembers
    have hvalue : ∀ name j, (name, j) ∈ members → ∃ v, r.get? name = some v ∧ j.StandsFor v := by
      intro name j hmem
      obtain ⟨v, hv⟩ := Json.exists_standsFor_iff.2 (hsupported _ hmem)
      exact ⟨v, (get?_of_ofJson hd hr name v).2 ⟨j, hmem, hv⟩, hv⟩
    refine ⟨fun name => ?_, fun name j hmem => ?_⟩
    · rw [contains, Option.isSome_iff_exists]
      constructor
      · rintro ⟨v, hv⟩
        obtain ⟨j, hmem, -⟩ := (get?_of_ofJson hd hr name v).1 hv
        exact ⟨j, hmem⟩
      · rintro ⟨j, hmem⟩
        obtain ⟨v, hv, -⟩ := hvalue name j hmem
        exact ⟨v, hv⟩
    · obtain ⟨v, hv, hstands⟩ := hvalue name j hmem
      exact ⟨v, hv, hstands.read.1⟩
  · exact ⟨fun v => Json.value_eq_ok_iff, fun name => exists_ofJson_singleton_eq_error_iff name j⟩

/-- Of two unsupported members the one with the smaller name is reported, and of
two large integers only the one that fits sixty-four bits stays one. -/
theorem ofJson_active_tags_big :
    let bad := Json.object (Fields.ofEntries [("tags".toList, .array []),
      ("active".toList, .bool true), ("age".toList, .number (.integer 35))])
    let big := Json.object (Fields.ofEntries [("max".toList, .number (.integer 0x7FFFFFFFFFFFFFFF)),
      ("big".toList, .number (.integer 0x8000000000000000))])
    (bad.NamesAscend ∧ ofJson bad = .error (.unsupported "active".toList .bool))
      ∧ big.NamesAscend ∧ ∃ r, ofJson big = .ok r
        ∧ r.get? "max".toList = some (.integer Int64.maxValue)
        ∧ r.get? "big".toList = some (.float ⟨0x43E0000000000000⟩) := by
  intro bad big
  have hbad : bad.NamesAscend := Fields.ascending_ofEntries _
  have hbig : big.NamesAscend := Fields.ascending_ofEntries _
  refine ⟨⟨hbad, ?_⟩, hbig, ?_⟩
  · refine ((ofJson_exact hbad).2.2.1 _).2 (.unsupported (j := .bool true) ?_ ?_ ?_)
    · exact List.mem_cons_self ..
    · decide
    · decide
  · obtain ⟨r, hr⟩ := (ofJson_exact hbig).1.2 ⟨_, rfl, by decide⟩
    obtain ⟨-, hget⟩ := (ofJson_exact hbig).2.1 r _ hr rfl
    refine ⟨r, hr, ?_, ?_⟩
    · obtain ⟨v, hv, hread⟩ := hget "max".toList _ (List.mem_cons_of_mem _ (List.mem_cons_self ..))
      have hmax : Value.ofJson (.number (.integer 0x7FFFFFFFFFFFFFFF))
          = .ok (.integer Int64.maxValue) :=
        Json.value_eq_ok_iff.2 (.integer Int64.maxValue)
      rw [hv, Except.ok.inj (hread.symm.trans hmax)]
    · obtain ⟨v, hv, hread⟩ := hget "big".toList _ (List.mem_cons_self ..)
      have hround : Value.ofJson (.number (.integer 0x8000000000000000))
          = .ok (.float ⟨0x43E0000000000000⟩) :=
        Json.value_eq_ok_iff.2 (.rounded (by decide))
      rw [hv, Except.ok.inj (hread.symm.trans hround)]

end Record

end AttributeRules
