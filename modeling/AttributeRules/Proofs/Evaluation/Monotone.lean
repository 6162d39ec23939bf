import AttributeRules.Proofs.Evaluation.Report

/-!
# What more data can change

A record grows as more becomes known about its subject: it gets attributes that
it lacked, and those it had keep their values (`Record.Extends`). A rule that
holds of a record goes on holding then. It has no negation, so its formula is
monotone in the truth of its conditions (`Rule.TrueUnder.mono`), and a condition
that is met by the value of its field is still met by it.

The converse fails, since a missing field counts as false and may turn out to
be as asked. Where the report was conclusive no field was missing, though, and
then nothing changes at all. This is a case of a more general fact: the report
depends on the fields that the conditions of the rule name and on nothing else
in the record (`Rule.report_congr`).
-/

namespace AttributeRules

/-! ## Larger records -/

/-- **Whether a record extends another**: it has every attribute of the other,
with the same value. -/
def Record.Extends (more r : Record) : Prop :=
  ∀ name v, r.get? name = some v → more.get? name = some v

/-- A record is extended by giving it an attribute that it lacks. -/
theorem Record.extends_insert {r : Record} {name : Text} (h : r.contains name = false)
    (v : Value) : (r.insert name v).Extends r := by
  intro other w hother
  have hne : other ≠ name := by
    rintro rfl
    rw [contains, hother] at h
    exact absurd h (by simp)
  rw [Record.get?_insert_of_ne r v hne]
  exact hother

/-! ## One condition -/

namespace Condition

/-- A condition that a record satisfies is satisfied by every larger one. -/
theorem SatisfiedBy.extend {c : Condition} {r more : Record} (h : c.SatisfiedBy r)
    (hmore : more.Extends r) : c.SatisfiedBy more := by
  obtain ⟨v, hv, hmet⟩ := h
  exact ⟨v, hmore _ _ hv, hmet⟩

/-- The report on a condition depends on the value of its field alone. -/
theorem report_congr {c : Condition} {r s : Record} (h : r.get? c.field = s.get? c.field) :
    c.report r = c.report s := by
  unfold report
  rw [h]

/-- A larger record has the same value in the field of a condition that was
decided. -/
theorem get?_eq_of_extends {c : Condition} {r more : Record} (h : c.issue? r = none)
    (hmore : more.Extends r) : more.get? c.field = r.get? c.field := by
  obtain ⟨hissue, -⟩ | ⟨-, v, hv, -⟩ := c.issue?_cases r
  · exact absurd h hissue
  · rw [hv]
    exact hmore _ _ hv

end Condition

/-! ## Rules -/

namespace Rule

/-- **The formula of a rule is monotone**: it stays true when more conditions
are. -/
theorem TrueUnder.mono {truth truth' : Condition → Prop} (himp : ∀ c, truth c → truth' c)
    {rule : Rule} (h : rule.TrueUnder truth) : rule.TrueUnder truth' := by
  induction rule with
  | operand c => exact himp c h
  | branch op left right ihleft ihright =>
    cases op with
    | and => exact And.imp ihleft ihright h
    | or => exact Or.imp ihleft ihright h

/-- **A report depends on the fields of the conditions alone.** -/
theorem report_congr {rule : Rule} {r s : Record}
    (h : ∀ c ∈ rule.conditions, r.get? c.field = s.get? c.field) :
    rule.report r = rule.report s := by
  induction rule with
  | operand c => exact c.report_congr (h c (List.mem_singleton_self c))
  | branch op left right ihleft ihright =>
    obtain ⟨hleft, hright⟩ := List.forall_mem_append.1 h
    rw [report, report, ihleft hleft, ihright hright]

/-- A report is conclusive exactly if no condition has an issue. -/
theorem isConclusive_report_iff {rule : Rule} {r : Record} :
    (rule.report r).isConclusive = true ↔ ∀ c ∈ rule.conditions, c.issue? r = none := by
  rw [report_eq, Report.isConclusive, List.isEmpty_iff, List.filterMap_eq_nil_iff]

/-- A rule that holds of a record holds of every larger one. -/
theorem holds_of_extends {rule : Rule} {r more : Record} (h : rule.holds r = true)
    (hmore : more.Extends r) : rule.holds more = true := by
  rw [holds_iff_trueUnder] at h ⊢
  exact h.mono fun c hc => hc.extend hmore

/-- **More data revokes no match, and what a rule does not ask for does not
matter.** A rule that holds of a record holds of every record that extends it,
and a conclusive report stays as it is; and records that agree on all fields
named in the conditions of a rule, having the same value or none, get the same
report. -/
theorem holds_mono_and_report_agree (rule : Rule) (r s : Record) :
    (s.Extends r → (rule.holds r = true → rule.holds s = true)
        ∧ ((rule.report r).isConclusive = true → rule.report s = rule.report r))
      ∧ ((∀ c ∈ rule.conditions, r.get? c.field = s.get? c.field) →
        rule.report r = rule.report s) := by
  refine ⟨fun hmore => ⟨fun h => holds_of_extends h hmore, fun h => ?_⟩, report_congr⟩
  refine report_congr fun c hc => ?_
  exact Condition.get?_eq_of_extends (isConclusive_report_iff.1 h c hc) hmore

/-- An age above thirty settles a rule that asks for it, alone or as one of two
alternatives, whatever becomes known of the pay; and a city makes no difference
to either. -/
theorem report_of_known_age :
    let age := operand ⟨"age".toList, .greater, .bare "30".toList⟩
    let ageOrPay := Rule.or age (operand ⟨"pay".toList, .less, .bare "5".toList⟩)
    let known := Record.ofEntries [("age".toList, .integer 31)]
    let paid := known.insert "pay".toList (.text "low".toList)
    let settled := paid.insert "city".toList (.integer 7)
    settled.Extends known
      ∧ (ageOrPay.holds known = true ∧ ageOrPay.holds settled = true)
      ∧ ((age.report known).isConclusive = true ∧ age.report settled = age.report known)
      ∧ ageOrPay.report paid = ageOrPay.report settled := by
  intro age ageOrPay known paid settled
  have hpaid : paid.Extends known := Record.extends_insert (by decide) _
  have hsettled : settled.Extends known := fun name v hv =>
    Record.extends_insert (r := paid) (by decide) _ name v (hpaid name v hv)
  have hholds : ageOrPay.holds known = true := by decide
  have hconclusive : (age.report known).isConclusive = true := by decide
  refine ⟨hsettled, ⟨hholds, ?_⟩, ⟨hconclusive, ?_⟩, ?_⟩
  · exact ((holds_mono_and_report_agree ageOrPay known settled).1 hsettled).1 hholds
  · exact ((holds_mono_and_report_agree age known settled).1 hsettled).2 hconclusive
  · exact (holds_mono_and_report_agree ageOrPay paid settled).2 (by decide)

end Rule

end AttributeRules
