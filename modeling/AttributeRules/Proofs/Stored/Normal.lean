import AttributeRules.Proofs.Rule.Agreement
import AttributeRules.Proofs.Stored.RoundTrip

/-!
# The normal form of stored rules

Nodes that were not written by the library may spell a rule in a way in which
it would not be stored: a connective in small letters, a condition with blanks
of any kind and number around its tokens. Reading such a node and storing the
rule again changes the spelling of its values and nothing else. The new node
has children where the old one had them, and each position keeps its kind.

What happens to the values is the relation `StoredNode.Normalises`. A connective
is put into capitals. A condition has three tokens, and these are kept as they
stand – the sign and the zeros in front of a number, the quotes of a literal and
the blanks between them – with one space between any two. Nodes that are so
already, `StoredNode.IsNormal`, are the ones that come back unchanged
(`StoredNode.normalises_ofRule`).
-/

namespace AttributeRules

/-! ## Capitals -/

namespace Text

/-- A letter is put into capitals alike from either case. -/
theorem toUpper_toLower (c : Char) : c.toLower.toUpper = c.toUpper := by
  by_cases hc : c.toLower = c
  · rw [hc]
  · -- only the capitals have another lower case, and there are twenty-six of them
    have hcapitals : ∀ n < 26,
        (Char.ofNat (65 + n)).toLower.toUpper = (Char.ofNat (65 + n)).toUpper := by decide
    obtain ⟨hfirst, hlast⟩ := toNat_of_toLower_ne hc
    have hletter := hcapitals (c.toNat - 65) (by omega)
    rwa [Nat.add_sub_cancel' hfirst, Char.ofNat_toNat] at hletter

theorem map_toUpper_map_toLower (t : Text) :
    (t.map Char.toLower).map Char.toUpper = t.map Char.toUpper := by
  rw [List.map_map]
  exact List.map_congr_left fun c _ => toUpper_toLower c

theorem toUpper_eq_self_iff {c : Char} : c.toUpper = c ↔ c.isLower = false := by
  unfold Char.toUpper Char.isLower
  grind [Char.ext_iff]

/-- A text is in capitals as it is exactly if it holds no small letter. -/
theorem map_toUpper_eq_self_iff {t : Text} :
    t.map Char.toUpper = t ↔ ∀ c ∈ t, c.isLower = false := by
  induction t with
  | nil => simp
  | cons c t ih =>
    rw [List.map_cons, List.cons_eq_cons, toUpper_eq_self_iff, ih, List.forall_mem_cons]

end Text

/-- Every spelling of a connective gives its name when put into capitals. -/
theorem Connective.map_toUpper_eq_render {op : Connective} {keyword : Text}
    (h : Text.sameIgnoringCase keyword op.render = true) :
    keyword.map Char.toUpper = op.render := by
  have hlower : keyword.map Char.toLower = op.render.map Char.toLower := eq_of_beq h
  calc keyword.map Char.toUpper
      = (keyword.map Char.toLower).map Char.toUpper := (Text.map_toUpper_map_toLower keyword).symm
    _ = (op.render.map Char.toLower).map Char.toUpper := by rw [hlower]
    _ = op.render := by cases op <;> decide

namespace StoredNode

/-! ## Normal forms -/

/-- **What becomes of a node that is read and stored again**: a node of the same
shape and of the same kind at each position. -/
inductive Normalises : StoredNode → StoredNode → Prop
  /-- A condition has three tokens, which are kept as they are, with one space
  between any two. -/
  | operand {value : Text} {first second third : Token}
      (h : Token.ofText value = [first, second, third]) :
      Normalises ⟨.operand, value, none, none⟩
        ⟨.operand, first.text ++ ' ' :: (second.text ++ ' ' :: third.text), none, none⟩
  /-- A connective is put into capitals, and its children are normalised. -/
  | operator {value : Text} {left left' right right' : StoredNode}
      (hleft : Normalises left left') (hright : Normalises right right') :
      Normalises ⟨.operator, value, some left, some right⟩
        ⟨.operator, value.map Char.toUpper, some left', some right'⟩

/-- **Whether a node is in normal form**: its connectives hold no small letters,
and its conditions are three tokens with single spaces between them and no
other blanks outside of these. -/
inductive IsNormal : StoredNode → Prop
  /-- A condition. -/
  | operand {value : Text} {first second third : Token}
      (h : Token.ofText value = [first, second, third])
      (hvalue : value = first.text ++ ' ' :: (second.text ++ ' ' :: third.text)) :
      IsNormal ⟨.operand, value, none, none⟩
  /-- A connective. -/
  | operator {value : Text} {left right : StoredNode} (hvalue : ∀ c ∈ value, c.isLower = false)
      (hleft : IsNormal left) (hright : IsNormal right) :
      IsNormal ⟨.operator, value, some left, some right⟩

/-- A node has one normal form at most. -/
theorem Normalises.unique {n m m' : StoredNode} (h : n.Normalises m) (h' : n.Normalises m') :
    m = m' := by
  induction h generalizing m' with
  | operand h =>
    cases h' with
    | operand h' =>
      obtain ⟨rfl, rfl, rfl⟩ := by simpa using h.symm.trans h'
      rfl
  | operator _ _ ihleft ihright =>
    cases h' with
    | operator hleft hright => rw [ihleft hleft, ihright hright]

/-- A node that is its own normal form is in normal form. -/
theorem Normalises.isNormal {n m : StoredNode} (h : n.Normalises m) (hm : m = n) : n.IsNormal := by
  induction h with
  | operand h =>
    rw [StoredNode.mk.injEq] at hm
    exact .operand h hm.2.1.symm
  | operator _ _ ihleft ihright =>
    simp only [StoredNode.mk.injEq, Option.some.injEq, true_and] at hm
    obtain ⟨hvalue, hleft, hright⟩ := hm
    exact .operator (Text.map_toUpper_eq_self_iff.1 hvalue) (ihleft hleft) (ihright hright)

/-- A node in normal form is its own normal form. -/
theorem IsNormal.normalises {n : StoredNode} (h : n.IsNormal) : n.Normalises n := by
  induction h with
  | operand h hvalue =>
    have hself := Normalises.operand h
    rwa [← hvalue] at hself
  | @operator value left right hvalue _ _ ihleft ihright =>
    have hself : Normalises ⟨.operator, value, some left, some right⟩ _ :=
      .operator ihleft ihright
    rwa [Text.map_toUpper_eq_self_iff.2 hvalue] at hself

/-- A node that normalises to another is that node exactly if it is in normal
form. -/
theorem Normalises.eq_iff_isNormal {n m : StoredNode} (h : n.Normalises m) :
    m = n ↔ n.IsNormal :=
  ⟨h.isNormal, fun hn => h.unique hn.normalises⟩

/-! ## Reading and storing again -/

/-- **A rule that was read from a node is stored as the normal form of that
node.** -/
theorem normalises_of_toRule {n : StoredNode} {r : Rule} (h : n.toRule = .ok r) :
    n.Normalises (ofRule r) := by
  fun_induction toRule n generalizing r with
  | case1 value c hparse =>
    obtain rfl := Except.ok.inj h
    have hvalue := Normalises.operand (Condition.parse_eq_ok_iff.1 hparse)
    rw [Literal.text_token] at hvalue
    rw [ofRule, Condition.render_eq]
    exact hvalue
  | case2 value e hparse => exact absurd h (by simp)
  | case3 value left right hchildren => exact absurd h (by simp)
  | case4 value left right hop => exact absurd h (by simp)
  | case5 value op hop right => exact absurd h (by simp)
  | case6 value op hop left => exact absurd h (by simp)
  | case7 value op hop left right ihleft ihright =>
    obtain ⟨l, hl, h⟩ := bind_eq_ok_iff.1 h
    obtain ⟨r', hr, h⟩ := bind_eq_ok_iff.1 h
    obtain rfl := Except.ok.inj h
    rw [ofRule, ← Connective.map_toUpper_eq_render (Connective.ofText?_eq_some_iff.1 hop)]
    exact .operator (ihleft hl) (ihright hr)

/-- **Reading a node and storing it again does no more than normalise it.** The
node is unchanged exactly if it is in normal form, and what it has become does
not change when it is read and stored another time. -/
theorem normalises_ofRule {n : StoredNode} {r : Rule} (h : n.toRule = .ok r) :
    n.Normalises (ofRule r) ∧ (ofRule r = n ↔ n.IsNormal)
      ∧ ofRule <$> (ofRule r).toRule = .ok (ofRule r) := by
  have hnormalises := normalises_of_toRule h
  refine ⟨hnormalises, hnormalises.eq_iff_isNormal, ?_⟩
  rw [toRule_ofRule (Rule.storable_of_toRule h)]
  rfl

/-- Small letters, an ideographic space, a number with a sign and zeros, and a
quoted literal that keeps its blanks. -/
theorem normalises_ofRule_spread :
    let left : StoredNode := ⟨.operand, "a\u3000=\t+007".toList, none, none⟩
    let right : StoredNode := ⟨.operand, " b  > 'x  (y' ".toList, none, none⟩
    let left' : StoredNode := ⟨.operand, "a = +007".toList, none, none⟩
    let right' : StoredNode := ⟨.operand, "b > 'x  (y'".toList, none, none⟩
    (StoredNode.mk .operator "oR".toList left right).Normalises
        ⟨.operator, "OR".toList, left', right'⟩
      ∧ ¬ (StoredNode.mk .operator "oR".toList left right).IsNormal := by
  intro left right left' right'
  have hread : (StoredNode.mk .operator "oR".toList left right).toRule
      = .ok (.or (.operand ⟨"a".toList, .equal, .bare "+007".toList⟩)
          (.operand ⟨"b".toList, .greater, .quoted "x  (y".toList⟩)) :=
    toOption_eq_some_iff.1 (by decide +kernel)
  obtain ⟨hnormalises, hnormal, -⟩ := normalises_ofRule hread
  refine ⟨hnormalises, fun h => ?_⟩
  have hvalue := congrArg StoredNode.value (hnormal.2 h)
  exact absurd hvalue (by decide)

end StoredNode

end AttributeRules
