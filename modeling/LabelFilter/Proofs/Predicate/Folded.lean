import LabelFilter.Proofs.Predicate.Connective

/-!
# Folded trees

A tree is folded (`Predicate.Folded`) if it is a constant, or if it has no constant, no group of fewer than two, no group
in a group of its kind and no double negation (`Predicate.Solid`). Trees that are built by folding are folded, and on
them the two connectives are associative, each with a unit and a zero, as equations of trees (`folded_algebra`).

This is done for either connective at once. A folded tree is the group of its members, and trees that may be members
are what the group of them has (`group_members`, `members_group`). Hence joining what is folded already changes nothing
(`join_singleton`), and a list may be joined part by part (`join_append`). All laws follow from these two.
-/

namespace LabelFilter.Predicate

variable {α : Type}

/-! ## Folded trees -/

/-- The tree has no constant, every group has two members at least and none of its own kind, and no negation is
negated. -/
inductive Solid : Predicate α → Prop
  | test (t : α) : Solid (test t)
  | not {p : Predicate α} (operand : Solid p) (single : ∀ q, p ≠ not q) : Solid (not p)
  | and {ps : List (Predicate α)} (size : 2 ≤ ps.length) (members : ∀ p ∈ ps, Solid p)
      (flat : ∀ p ∈ ps, ∀ qs, p ≠ and qs) : Solid (and ps)
  | or {ps : List (Predicate α)} (size : 2 ≤ ps.length) (members : ∀ p ∈ ps, Solid p)
      (flat : ∀ p ∈ ps, ∀ qs, p ≠ or qs) : Solid (or ps)

/-- The tree is a constant or has none. -/
def Folded (p : Predicate α) : Prop := (∃ b, p = const b) ∨ Solid p

theorem Solid.ne_const {p : Predicate α} (h : Solid p) (b : Bool) : p ≠ const b := by
  cases h <;> exact nofun

/-! ## Negations -/

theorem Folded.negate {p : Predicate α} (h : Folded p) : Folded p.negate := by
  rcases h with ⟨b, rfl⟩ | h
  · exact .inl ⟨!b, rfl⟩
  · refine .inr ?_
    cases h with
    | not operand _ => exact operand
    | test t => exact .not (.test t) nofun
    | and size members flat => exact .not (.and size members flat) nofun
    | or size members flat => exact .not (.or size members flat) nofun

theorem Folded.negate_negate {p : Predicate α} (h : Folded p) : p.negate.negate = p := by
  rcases h with ⟨b, rfl⟩ | h
  · exact congrArg const (Bool.not_not b)
  · cases h with
    | not operand single =>
      -- what is left of a negation is negated again, for it is none itself
      rw [Predicate.negate]
      unfold Predicate.negate
      split
      next b => exact absurd rfl (operand.ne_const b)
      next q => exact absurd rfl (single q)
      next => rfl
    | _ => rfl

/-! ## Groups -/

namespace Connective

/-- The tree may be a member of a folded group. -/
def Fits (k : Connective) (p : Predicate α) : Prop := Solid p ∧ ∀ qs, p ≠ k.build qs

variable {k : Connective} {p q : Predicate α} {ps qs : List (Predicate α)}

theorem solid_build_iff : Solid (k.build ps) ↔ 2 ≤ ps.length ∧ ∀ p ∈ ps, k.Fits p := by
  constructor
  · intro h
    cases k with
    | conjunction => cases h with | and size members flat => exact ⟨size, fun p hp => ⟨members p hp, flat p hp⟩⟩
    | disjunction => cases h with | or size members flat => exact ⟨size, fun p hp => ⟨members p hp, flat p hp⟩⟩
  · rintro ⟨size, hfits⟩
    cases k with
    | conjunction => exact .and size (fun p hp => (hfits p hp).1) fun p hp => (hfits p hp).2
    | disjunction => exact .or size (fun p hp => (hfits p hp).1) fun p hp => (hfits p hp).2

/-- What may be a member of a folded group adds itself. -/
theorem Fits.members (h : k.Fits p) : k.members p = [p] := by
  rcases k.members_cases p with hunit | ⟨qs, hbuild⟩ | hself
  · exact absurd hunit (h.1.ne_const _)
  · exact absurd hbuild (h.2 qs)
  · exact hself

/-- A solid tree is a group of the kind or a member of one. -/
theorem build_or_fits (k : Connective) (h : Solid p) : (∃ qs, p = k.build qs) ∨ k.Fits p := by
  by_cases hbuild : ∃ qs, p = k.build qs
  · exact .inl hbuild
  · exact .inr ⟨h, fun qs hp => hbuild ⟨qs, hp⟩⟩

/-- A folded tree other than the zero is the group of its members, and these may be members. -/
theorem group_members (h : Folded p) (hzero : p ≠ const !k.unit) :
    k.group (k.members p) = p ∧ ∀ q ∈ k.members p, k.Fits q := by
  rcases h with ⟨b, rfl⟩ | h
  · obtain rfl : b = k.unit := Bool.not_eq_not.mp fun hb => hzero (congrArg const hb)
    rw [members_unit]
    exact ⟨rfl, nofun⟩
  · rcases build_or_fits k h with ⟨qs, rfl⟩ | hfits
    · obtain ⟨size, hfits⟩ := solid_build_iff.mp h
      rw [members_build]
      refine ⟨?_, hfits⟩
      match qs with
      | _ :: _ :: _ => rfl
    · rw [hfits.members]
      exact ⟨rfl, by simpa using hfits⟩

/-- What is grouped is what the group has for members. -/
theorem members_group (h : ∀ p ∈ ps, k.Fits p) : k.members (k.group ps) = ps := by
  match ps with
  | [] => exact members_unit
  | [p] => exact (h p List.mem_cons_self).members
  | p :: q :: ps => exact members_build

/-- A group of none is the unit, and any other is solid. -/
theorem solid_group (h : ∀ p ∈ ps, k.Fits p) (hne : ps ≠ []) : Solid (k.group ps) := by
  match ps with
  | [p] => exact (h p List.mem_cons_self).1
  | p :: q :: ps => exact solid_build_iff.mpr ⟨by simp, h⟩

theorem group_ne_zero (h : ∀ p ∈ ps, k.Fits p) : k.group ps ≠ const !k.unit := by
  by_cases hne : ps = []
  · subst hne
    cases k <;> exact nofun
  · exact (solid_group h hne).ne_const _

/-! ### Joining -/

theorem fits_of_mem_flatMap (hps : ∀ p ∈ ps, Folded p) (hzero : const (!k.unit) ∉ ps) :
    ∀ q ∈ ps.flatMap k.members, k.Fits q := by
  intro q hq
  obtain ⟨p, hp, hq⟩ := List.mem_flatMap.mp hq
  exact (group_members (hps p hp) fun hconst => hzero (hconst ▸ hp)).2 q hq

/-- What is joined is folded. -/
theorem folded_join (hps : ∀ p ∈ ps, Folded p) : Folded (k.join ps) := by
  by_cases hzero : const (!k.unit) ∈ ps
  · exact .inl ⟨_, join_of_mem hzero⟩
  · rw [join_of_not_mem hzero]
    by_cases hne : ps.flatMap k.members = []
    · rw [hne]
      exact .inl ⟨k.unit, rfl⟩
    · exact .inr (solid_group (fits_of_mem_flatMap hps hzero) hne)

/-- What is joined of solid trees is solid, if there are any. -/
theorem solid_join (hps : ∀ p ∈ ps, Solid p) (hne : ps ≠ []) : Solid (k.join ps) := by
  have hfolded : ∀ p ∈ ps, Folded p := fun p hp => .inr (hps p hp)
  have hzero : const (!k.unit) ∉ ps := fun hmem => (hps _ hmem).ne_const _ rfl
  rw [join_of_not_mem hzero]
  refine solid_group (fits_of_mem_flatMap hfolded hzero) fun hnone => ?_
  -- a tree that adds no members is the group of none, and that is a constant
  obtain ⟨p, hp⟩ := List.exists_mem_of_ne_nil ps hne
  have hgroup := (group_members (k := k) (hfolded p hp) ((hps p hp).ne_const _)).1
  rw [List.flatMap_eq_nil_iff.mp hnone p hp] at hgroup
  exact (hps p hp).ne_const k.unit hgroup.symm

/-- Joining what is folded already changes nothing. -/
theorem join_singleton (h : Folded p) : k.join [p] = p := by
  by_cases hzero : p = const !k.unit
  · subst hzero
    exact join_of_mem List.mem_cons_self
  · rw [join_of_not_mem (by simpa using Ne.symm hzero), List.flatMap_singleton]
    exact (group_members h hzero).1

/-- A list is joined part by part. -/
theorem join_append (hps : ∀ p ∈ ps, Folded p) (hqs : ∀ p ∈ qs, Folded p) :
    k.join (ps ++ qs) = k.join [k.join ps, k.join qs] := by
  by_cases hp : const (!k.unit) ∈ ps
  · rw [join_of_mem (List.mem_append_left qs hp), join_of_mem hp, join_of_mem List.mem_cons_self]
  by_cases hq : const (!k.unit) ∈ qs
  · rw [join_of_mem (List.mem_append_right ps hq), join_of_mem hq, join_of_mem (by simp)]
  have hfits_ps := fits_of_mem_flatMap hps hp
  have hfits_qs := fits_of_mem_flatMap hqs hq
  have hzero : const (!k.unit) ∉ [k.group (ps.flatMap k.members), k.group (qs.flatMap k.members)] := by
    simpa using ⟨(group_ne_zero hfits_ps).symm, (group_ne_zero hfits_qs).symm⟩
  rw [join_of_not_mem hp, join_of_not_mem hq, join_of_not_mem hzero, join_of_not_mem (by simp [hp, hq]),
    List.flatMap_append]
  simp [members_group hfits_ps, members_group hfits_qs]

/-- What is joined at the front may be joined with the rest at once. -/
theorem join_join_cons (hps : ∀ p ∈ ps, Folded p) (hqs : ∀ p ∈ qs, Folded p) :
    k.join (k.join ps :: qs) = k.join (ps ++ qs) := by
  have hfirst : ∀ p ∈ [k.join ps], Folded p := by simpa using folded_join hps
  rw [join_append hps hqs, ← List.singleton_append, join_append hfirst hqs, join_singleton (folded_join hps)]

/-- Joining a list is going through it from what is joined so far. -/
theorem foldl_join (hps : ∀ p ∈ ps, Folded p) (hq : Folded q) :
    ps.foldl (fun p q => k.join [p, q]) q = k.join (q :: ps) := by
  induction ps generalizing q with
  | nil => exact (join_singleton hq).symm
  | cons p ps ih =>
    obtain ⟨hp, hps⟩ := List.forall_mem_cons.mp hps
    have htwo : ∀ r ∈ [q, p], Folded r := by simp [hp, hq]
    rw [List.foldl_cons, ih hps (folded_join htwo), join_join_cons htwo hps]
    rfl

end Connective

/-! ## Laws -/

/-- On folded trees an operation is associative, with a unit and a zero, and joining a list is going through it. -/
structure FoldedMonoid (op : Predicate α → Predicate α → Predicate α) (join : List (Predicate α) → Predicate α)
    (unit zero : Predicate α) : Prop where
  folded_unit : Folded unit
  folded_op : ∀ {p q}, Folded p → Folded q → Folded (op p q)
  folded_join : ∀ {ps}, (∀ p ∈ ps, Folded p) → Folded (join ps)
  op_assoc : ∀ {p q r}, Folded p → Folded q → Folded r → op (op p q) r = op p (op q r)
  unit_op : ∀ {p}, Folded p → op unit p = p
  op_unit : ∀ {p}, Folded p → op p unit = p
  zero_op : ∀ p, op zero p = zero
  op_zero : ∀ p, op p zero = zero
  join_eq_foldl : ∀ {ps}, (∀ p ∈ ps, Folded p) → join ps = ps.foldl op unit

/-- Either connective is such an operation. -/
theorem Connective.foldedMonoid (k : Connective) :
    FoldedMonoid (fun p q : Predicate α => k.join [p, q]) k.join (const k.unit) (const !k.unit) where
  folded_unit := .inl ⟨_, rfl⟩
  folded_op hp hq := folded_join (by simp [hp, hq])
  folded_join := folded_join
  op_assoc {p q r} hp hq hr := by
    have hpq : ∀ s ∈ [p, q], Folded s := by simp [hp, hq]
    have hqr : ∀ s ∈ [q, r], Folded s := by simp [hq, hr]
    calc k.join [k.join [p, q], r]
        = k.join ([p, q] ++ [r]) := join_join_cons hpq (by simp [hr])
      _ = k.join ([p] ++ [q, r]) := rfl
      _ = k.join [k.join [p], k.join [q, r]] := join_append (by simp [hp]) hqr
      _ = k.join [p, k.join [q, r]] := by rw [join_singleton hp]
  unit_op {p} hp := by
    rw [← join_nil, join_join_cons (List.forall_mem_nil _) (by simpa using hp)]
    exact join_singleton hp
  op_unit {p} hp := by
    have hone : ∀ s ∈ [p], Folded s := by simpa using hp
    calc k.join [p, const k.unit]
        = k.join [k.join [p], k.join []] := by rw [join_singleton hp, join_nil]
      _ = k.join ([p] ++ []) := (join_append hone (List.forall_mem_nil _)).symm
      _ = p := join_singleton hp
  zero_op _ := join_of_mem List.mem_cons_self
  op_zero _ := join_of_mem (by simp)
  join_eq_foldl {ps} hps := by
    rw [foldl_join hps (.inl ⟨_, rfl⟩), ← join_nil, join_join_cons (List.forall_mem_nil _) hps, List.nil_append]

/-- **Folding has laws.** The combinators keep trees folded, and on folded trees the conjunction and the disjunction are
associative with a unit and a zero, negation cancels, and joining a list is going through it, all as equations of
trees. -/
theorem folded_algebra :
    FoldedMonoid both all (always : Predicate α) never ∧ FoldedMonoid either any (never : Predicate α) always ∧
    (∀ t : α, Folded (test t)) ∧ ∀ p : Predicate α, Folded p → Folded p.negate ∧ p.negate.negate = p :=
  ⟨Connective.foldedMonoid .conjunction, Connective.foldedMonoid .disjunction, fun t => .inr (.test t),
    fun _ hp => ⟨hp.negate, hp.negate_negate⟩⟩

/-- A conjunction and the negation of a disjunction: the one is spliced in, the other stays whole. -/
theorem folded_algebra_mixed :
    Folded (and [test 'a', test 'b']) ∧ Folded (not (or [test 'c', test 'd'])) ∧
    both (both (and [test 'a', test 'b']) (not (or [test 'c', test 'd']))) (and [test 'a', test 'b']) =
      both (and [test 'a', test 'b']) (both (not (or [test 'c', test 'd'])) (and [test 'a', test 'b'])) ∧
    (not (or [test 'c', test 'd'])).negate.negate = not (or [test 'c', test 'd']) := by
  obtain ⟨hboth, -, -, hnegate⟩ := folded_algebra (α := Char)
  have hp : Folded (and [test 'a', test 'b']) := .inr (.and (by simp) (by simp [Solid.test]) (by simp))
  have hq : Folded (not (or [test 'c', test 'd'])) :=
    .inr (.not (.or (by simp) (by simp [Solid.test]) (by simp)) nofun)
  exact ⟨hp, hq, hboth.op_assoc hp hq hp, (hnegate _ hq).2⟩

/-- A group of one is not folded, and the unit does not leave it as it is. -/
example : both always (and [test 'a']) = test 'a' := rfl

end LabelFilter.Predicate
