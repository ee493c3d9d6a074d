import LabelFilter.Proofs.Json.Containment

/-!
# Containment as an order

Every value contains itself (`contains_refl`), and what a contained value contains is contained (`contains_trans`).
Containment asks each part of the pattern for some part of the document, at every depth anew, so both are by induction
on the pattern (`Json.induct`), with no bound on the nesting. At the leaves they come down to the equality of numbers,
which is an equivalence (`Number.same_equivalence`) though not equality of their data: the two zeros are the same
number.

The laws together are `contains_laws`. The last of them is why several pairs can be tested as one object.
-/

namespace LabelFilter

/-! ## Numbers -/

theorem Binary64.sameValue_iff {x y : Binary64} : x.sameValue y ↔ x = y ∨ x.isZero ∧ y.isZero := by
  rw [sameValue, Bool.or_eq_true, Bool.and_eq_true, decide_eq_true_iff]

theorem Binary64.sameValue_equivalence : Equivalence fun x y : Binary64 => (x.sameValue y : Prop) where
  refl x := sameValue_iff.mpr (.inl rfl)
  symm h := by
    rcases sameValue_iff.mp h with heq | ⟨hx, hy⟩
    · exact sameValue_iff.mpr (.inl heq.symm)
    · exact sameValue_iff.mpr (.inr ⟨hy, hx⟩)
  trans hxy hyz := by
    rcases sameValue_iff.mp hxy with rfl | ⟨hx, _⟩
    · exact hyz
    · rcases sameValue_iff.mp hyz with rfl | ⟨_, hz⟩
      · exact hxy
      · exact sameValue_iff.mpr (.inr ⟨hx, hz⟩)

namespace Json

theorem Number.same_equivalence : Equivalence fun m n : Number => (m.same n : Prop) where
  refl n := by
    cases n with
    | integer n => exact beq_self_eq_true n
    | double x => exact Binary64.sameValue_equivalence.refl x
  symm {m n} h := by
    cases m <;> cases n
    case integer.integer => exact beq_iff_eq.mpr (beq_iff_eq.mp h).symm
    case double.double => exact Binary64.sameValue_equivalence.symm h
    all_goals cases h
  trans {m n k} hmn hnk := by
    cases m <;> cases n <;> cases k
    case integer.integer.integer => exact beq_iff_eq.mpr ((beq_iff_eq.mp hmn).trans (beq_iff_eq.mp hnk))
    case double.double.double => exact Binary64.sameValue_equivalence.trans hmn hnk
    all_goals first | cases hmn | cases hnk

/-! ## Values -/

/-- The value holds no other values. -/
def IsScalar : Json → Prop
  | array _ | object _ => False
  | _ => True

theorem sizeOf_value_lt {m : String × Json} {ms : List (String × Json)} (h : m ∈ ms) : sizeOf m.2 < sizeOf ms := by
  obtain ⟨name, value⟩ := m
  have hmember := List.sizeOf_lt_of_mem h
  rw [Prod.mk.sizeOf_spec] at hmember
  show sizeOf value < sizeOf ms
  omega

/-- Induction on the nesting: what holds of scalars, of arrays if it holds of their elements, and of objects if it
holds of the values of their members, holds of every value. -/
@[elab_as_elim]
theorem induct {motive : Json → Prop} (scalar : ∀ v : Json, v.IsScalar → motive v)
    (array : ∀ es, (∀ e ∈ es, motive e) → motive (array es))
    (object : ∀ ms, (∀ m ∈ ms, motive m.2) → motive (object ms)) : ∀ v, motive v
  | .null => scalar _ trivial
  | .boolean _ => scalar _ trivial
  | .number _ => scalar _ trivial
  | .string _ => scalar _ trivial
  | .array es => array es fun e _ => induct scalar array object e
  | .object ms => object ms fun m hm =>
    have := sizeOf_value_lt hm
    induct scalar array object m.2
termination_by v => sizeOf v

theorem isScalar_of_sameScalar {v w : Json} (h : v.sameScalar w) : v.IsScalar := by
  cases v
  case array | object => cases h
  all_goals trivial

theorem sameScalar_self {v : Json} (h : v.IsScalar) : v.sameScalar v := by
  cases v with
  | null => rfl
  | boolean b => exact beq_self_eq_true b
  | number n => exact Number.same_equivalence.refl n
  | string s => exact beq_self_eq_true s
  | array | object => cases h

theorem sameScalar_trans {u v w : Json} (huv : u.sameScalar v) (hvw : v.sameScalar w) : u.sameScalar w := by
  cases u <;> cases v
  case null.null => exact hvw
  case boolean.boolean => rwa [beq_iff_eq.mp huv]
  case string.string => rwa [beq_iff_eq.mp huv]
  case number.number =>
    cases w
    case number => exact Number.same_equivalence.trans huv hvw
    all_goals cases hvw
  all_goals cases huv

/-! ## Containment -/

variable {document v w : Json}

/-- Only an equal scalar contains a scalar. -/
theorem contains_scalar {pattern : Json} (h : pattern.IsScalar) (document : Json) :
    document.contains pattern = document.sameScalar pattern := by
  cases pattern
  case array | object => cases h
  all_goals simp [contains]

theorem containsElements_eq (ds ps : List Json) :
    containsElements ds ps = ps.all fun p => ds.any fun d => d.contains p := by
  induction ps with
  | nil => simp [containsElements]
  | cons p ps ih => rw [containsElements, ih, List.all_cons]

/-- An array is contained by the arrays that have an element for each of its elements. -/
theorem contains_array_iff {ps : List Json} :
    document.contains (array ps) ↔ ∃ ds, document = array ds ∧ ∀ p ∈ ps, ∃ d ∈ ds, d.contains p := by
  cases document with
  | array ds => simp [contains, containsElements_eq]
  | _ => simp [contains]

/-- An object is contained by the objects that have a member for each of its members. -/
theorem contains_object_iff {ps : List (String × Json)} :
    document.contains (object ps) ↔
      ∃ ds, document = object ds ∧ ∀ p ∈ ps, ∃ d ∈ ds, d.1 = p.1 ∧ d.2.contains p.2 := by
  cases document with
  | object ds => simp [contains, containsMembers_eq]
  | _ => simp [contains]

theorem contains_refl (v : Json) : v.contains v := by
  induction v using induct with
  | scalar v hv =>
    rw [contains_scalar hv]
    exact sameScalar_self hv
  | array es ih => exact contains_array_iff.mpr ⟨es, rfl, fun e he => ⟨e, he, ih e he⟩⟩
  | object ms ih => exact contains_object_iff.mpr ⟨ms, rfl, fun m hm => ⟨m, hm, rfl, ih m hm⟩⟩

theorem contains_trans (huv : document.contains v) (hvw : v.contains w) : document.contains w := by
  induction w using induct generalizing document v with
  | scalar w hw =>
    rw [contains_scalar hw] at hvw ⊢
    rw [contains_scalar (isScalar_of_sameScalar hvw)] at huv
    exact sameScalar_trans huv hvw
  | array ws ih =>
    obtain ⟨vs, rfl, hvs⟩ := contains_array_iff.mp hvw
    obtain ⟨ds, rfl, hds⟩ := contains_array_iff.mp huv
    refine contains_array_iff.mpr ⟨ds, rfl, fun w hw => ?_⟩
    obtain ⟨v, hv, hvw⟩ := hvs w hw
    obtain ⟨d, hd, hdv⟩ := hds v hv
    exact ⟨d, hd, ih w hw hdv hvw⟩
  | object ws ih =>
    obtain ⟨vs, rfl, hvs⟩ := contains_object_iff.mp hvw
    obtain ⟨ds, rfl, hds⟩ := contains_object_iff.mp huv
    refine contains_object_iff.mpr ⟨ds, rfl, fun w hw => ?_⟩
    obtain ⟨v, hv, hname, hvw⟩ := hvs w hw
    obtain ⟨d, hd, hdname, hdv⟩ := hds v hv
    exact ⟨d, hd, hdname.trans hname, ih w hw hdv hvw⟩

/-- **The laws of containment.** It is reflexive and transitive, and a document contains an object with members
exactly if it contains the object of each of them. -/
theorem contains_laws :
    (∀ v : Json, v.contains v) ∧
    (∀ u v w : Json, u.contains v → v.contains w → u.contains w) ∧
    ∀ (document : Json) (ps : List (String × Json)), ps ≠ [] →
      (document.contains (object ps) ↔ ∀ p ∈ ps, document.contains (object [p])) := by
  refine ⟨contains_refl, fun _ _ _ => contains_trans, ?_⟩
  intro document ps hps
  rw [contains_object_eq hps, List.all_eq_true]

/-- A zero of either sign. -/
def zero (negative : Bool) : Json := number (.double ⟨negative, 0, Binary64.minExponent⟩)

/-- A document with an array in an object. -/
def listed : Json := object [("a", array [zero true, string "x"]), ("b", null)]

/-- A pattern of it with one element twice, and the zero of the other sign. -/
def listedTwice : Json := object [("a", array [string "x", zero false, string "x"])]

theorem contains_laws_listed :
    (array [null, listed]).contains (array [listedTwice, object []]) ∧
    (array [listedTwice, object []]).contains (array [object [("a", array [zero true])]]) ∧
    (array [null, listed]).contains (array [object [("a", array [zero true])]]) ∧
    [("a", array [zero false]), ("b", null)] ≠ [] ∧
    (listed.contains (object [("a", array [zero false]), ("b", null)]) ↔
      ∀ p ∈ [("a", array [zero false]), ("b", null)], listed.contains (object [p])) := by
  have houter : (array [null, listed]).contains (array [listedTwice, object []]) := by decide +kernel
  have hinner : (array [listedTwice, object []]).contains (array [object [("a", array [zero true])]]) := by
    decide +kernel
  have hmembers : [("a", array [zero false]), ("b", null)] ≠ [] := List.cons_ne_nil _ _
  obtain ⟨_, htrans, heach⟩ := contains_laws
  exact ⟨houter, hinner, htrans _ _ _ houter hinner, hmembers, heach listed _ hmembers⟩

end Json

end LabelFilter
