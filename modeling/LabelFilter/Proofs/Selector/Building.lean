import LabelFilter.Proofs.Expression.Defect
import LabelFilter.Selector.Builder

/-!
# What is built can be read back

Each kind of call is about a name, an operator and values (`Outcomes`). A call succeeds exactly if the expression of
these is read back from its text, and then that expression is added. Otherwise nothing changes, and the first text that
is no label is reported, or that values are missing (`Outcome`). So a selector that is built from nothing consists of
expressions that are read back, whichever calls failed on the way, and it is read back itself
(`Selector.ofText_text_build`). In a chain of calls the first one that fails is the last one (`addAll_eq_build`).

The defect of an expression is told by `Expression.Reports`. Calls ask for no values where an operator takes none, which
is the one thing that `Expression.defect?` overlooks (`Call.defect?_eq_none_iff`).
-/

namespace LabelFilter

/-! ## The defect that is reported -/

namespace Expression

/-- What is wrong with an expression: the first text that is no label, and only then missing values. -/
inductive Reports (e : Expression) : Defect → Prop
  | notALabel {before after : List String} {text : String} (texts : e.name :: e.values = before ++ text :: after)
    (labels : ∀ t ∈ before, isLabel t) (noLabel : isLabel text = false) : Reports e (.notALabel text)
  | noValues (labels : ∀ t ∈ e.name :: e.values, isLabel t) (takesValues : e.operator.takesValues)
    (missing : e.values = []) : Reports e (.noValues e.name)

theorem find?_eq_some_iff {e : Expression} {text : String} :
    (e.name :: e.values).find? (fun t => !isLabel t) = some text ↔
      isLabel text = false ∧
        ∃ before after, e.name :: e.values = before ++ text :: after ∧ ∀ t ∈ before, isLabel t := by
  simp [List.find?_eq_some_iff_append]

/-- The defect that is found is the one to report. -/
theorem defect?_eq_some_iff {e : Expression} {d : Defect} : e.defect? = some d ↔ e.Reports d := by
  constructor
  · intro h
    unfold defect? at h
    split at h
    next text hfind =>
      cases h
      obtain ⟨hno, before, after, htexts, hlabels⟩ := find?_eq_some_iff.mp hfind
      exact .notALabel htexts hlabels hno
    next hfind =>
      split at h
      next hmissing =>
        cases h
        rw [Bool.and_eq_true, List.isEmpty_iff] at hmissing
        refine .noValues (fun t ht => ?_) hmissing.1 hmissing.2
        simpa using List.find?_eq_none.mp hfind t ht
      next => cases h
  · intro h
    unfold defect?
    cases h with
    | notALabel htexts hlabels hno =>
      rw [find?_eq_some_iff.mpr ⟨hno, _, _, htexts, hlabels⟩]
    | noValues hlabels htakes hmissing =>
      have hfind : (e.name :: e.values).find? (fun t => !isLabel t) = none :=
        List.find?_eq_none.mpr fun t ht => by simp [hlabels t ht]
      rw [hfind, htakes, hmissing]
      rfl

end Expression

namespace Selector

/-! ## One call -/

/-- An expression by itself is read back from its text exactly if it is well-formed. -/
theorem ofText_text_single_iff {e : Expression} :
    ofText (ofExpressions [e]).text = .ok (ofExpressions [e]) ↔ e.WellFormed := by
  rw [ofText_text_iff, ofExpressions, List.forall_mem_singleton]

namespace Call

/-- No call gives values to an operator that takes none. -/
theorem shown_expression (c : Call) : c.expression.shown = c.expression := by cases c <;> rfl

theorem defect?_eq_none_iff (c : Call) : c.expression.defect? = none ↔ c.expression.WellFormed := by
  rw [Expression.wellFormed_iff, and_iff_left c.shown_expression]

end Call

theorem call_of_defect?_eq_none {c : Call} (h : c.expression.defect? = none) (s : Selector) :
    s.call c = (⟨s.expressions ++ [c.expression]⟩, none) := by
  simp only [call, addAll, add, h]

theorem call_of_defect?_eq_some {c : Call} {d : Defect} (h : c.expression.defect? = some d) (s : Selector) :
    s.call c = (s, some d) := by
  simp only [call, addAll, add, h]

/-- Whether a call fails, and why, does not depend on the selector. -/
theorem call_snd (s : Selector) (c : Call) : (s.call c).2 = c.expression.defect? := by
  cases h : c.expression.defect? with
  | none => rw [call_of_defect?_eq_none h]
  | some d => rw [call_of_defect?_eq_some h]

/-- What comes of a call for an expression: the expression is added at the end if it is read back by itself, or nothing
changes and the call reports why. -/
structure Outcome (e : Expression) (s : Selector) (answer : Selector × Option Defect) : Prop where
  succeeds : answer.2 = none ↔ ofText (ofExpressions [e]).text = .ok (ofExpressions [e])
  appends : answer.2 = none → answer.1.expressions = s.expressions ++ [e]
  keeps : ∀ d, answer.2 = some d → answer.1 = s
  reports : ∀ d, answer.2 = some d → e.Reports d

theorem Call.outcome (c : Call) (s : Selector) : Outcome c.expression s (s.call c) := by
  constructor
  case succeeds => rw [call_snd, ofText_text_single_iff, c.defect?_eq_none_iff]
  case appends =>
    intro h
    rw [call_snd] at h
    rw [call_of_defect?_eq_none h]
  case keeps =>
    intro d h
    rw [call_snd] at h
    rw [call_of_defect?_eq_some h]
  case reports =>
    intro d h
    rw [call_snd] at h
    exact Expression.defect?_eq_some_iff.mp h

/-- What comes of each kind of call, by the name, the operator and the values that it is about. -/
structure Outcomes (s : Selector) : Prop where
  isIn : ∀ name values, Outcome ⟨name, .oneOf, values⟩ s (s.call (.isIn name values))
  notIn : ∀ name values, Outcome ⟨name, .noneOf, values⟩ s (s.call (.notIn name values))
  exact : ∀ name value, Outcome ⟨name, .oneOf, [value]⟩ s (s.call (.exact name value))
  notExact : ∀ name value, Outcome ⟨name, .noneOf, [value]⟩ s (s.call (.notExact name value))
  present : ∀ name, Outcome ⟨name, .present, []⟩ s (s.call (.present name))
  absent : ∀ name, Outcome ⟨name, .absent, []⟩ s (s.call (.absent name))

theorem outcomes (s : Selector) : s.Outcomes where
  isIn name values := (Call.isIn name values).outcome s
  notIn name values := (Call.notIn name values).outcome s
  exact name value := (Call.exact name value).outcome s
  notExact name value := (Call.notExact name value).outcome s
  present name := (Call.present name).outcome s
  absent name := (Call.absent name).outcome s

/-! ## Runs of calls -/

theorem build_cons (s : Selector) (c : Call) (calls : List Call) :
    s.build (c :: calls) = (s.call c).1.build calls := rfl

theorem build_append (s : Selector) (calls : List Call) (c : Call) :
    s.build (calls ++ [c]) = ((s.build calls).call c).1 := by
  rw [build, List.foldl_append]
  rfl

/-- The expressions that were there stay in front, and those of the calls that succeed come after them. -/
theorem build_expressions (s : Selector) (calls : List Call) :
    (s.build calls).expressions =
      s.expressions ++ (calls.map Call.expression).filter fun e => e.defect?.isNone := by
  induction calls generalizing s with
  | nil => simp [build]
  | cons c calls ih =>
    rw [build_cons, ih, List.map_cons, List.filter_cons]
    cases h : c.expression.defect? with
    | none => simp [call_of_defect?_eq_none h]
    | some d => simp [call_of_defect?_eq_some h]

/-- A chain of calls ends at the first one that fails, and leaves what the calls before it build. -/
theorem addAll_eq_build (s : Selector) (calls : List Call) :
    s.addAll (calls.map Call.expression) =
      (s.build (calls.takeWhile fun c => (s.call c).2.isNone), calls.findSome? fun c => (s.call c).2) := by
  -- whether a call fails must not depend on the selector, which the induction varies
  simp only [call_snd]
  induction calls generalizing s with
  | nil => rfl
  | cons c calls ih =>
    rw [List.map_cons, addAll, add, List.takeWhile_cons, List.findSome?_cons]
    cases h : c.expression.defect? with
    | none =>
      simp only [Option.isNone_none, if_true, build_cons, call_of_defect?_eq_none h]
      exact ih _
    | some d => rfl

/-- Whatever is built from nothing consists of well-formed expressions. -/
theorem wellFormed_of_build (calls : List Call) : ∀ e ∈ (empty.build calls).expressions, e.WellFormed := by
  intro e he
  rw [build_expressions, empty, List.nil_append, List.mem_filter, Option.isNone_iff_eq_none] at he
  obtain ⟨c, _, rfl⟩ := List.mem_map.mp he.1
  exact c.defect?_eq_none_iff.mp he.2

/-- **What is built can be read back.** Calls start from the selector without expressions. After any of them, failed
ones among them, the selector is read back from its text, and whichever call comes next adds the expression of its name,
operator and values, or changes nothing and reports why. As a chain, the calls build what those before the first failure
build, and report that failure. -/
theorem ofText_text_build :
    (empty.build []).expressions = [] ∧ ∀ calls : List Call,
      ofText (empty.build calls).text = .ok (empty.build calls) ∧
      (∀ c, empty.build (calls ++ [c]) = ((empty.build calls).call c).1) ∧ (empty.build calls).Outcomes ∧
      empty.addAll (calls.map Call.expression) = (empty.build (calls.takeWhile fun c => (empty.call c).2.isNone),
        calls.findSome? fun c => (empty.call c).2) := by
  refine ⟨rfl, fun calls => ?_⟩
  exact ⟨ofText_text (wellFormed_of_build calls), build_append _ _, outcomes _, addAll_eq_build _ _⟩

/-- Calls of which the second and the fourth fail. -/
def mixedCalls : List Call :=
  [.isIn "env" ["prod", "dev"], .exact "zone" "eu west", .absent "canary", .notIn "tier" []]

theorem ofText_text_build_mixedCalls :
    ofText "env in (prod, dev), !canary" = .ok ⟨[⟨"env", .oneOf, ["prod", "dev"]⟩, ⟨"canary", .absent, []⟩]⟩ ∧
    ofText "app != x:y" = .ok ⟨[⟨"app", .noneOf, ["x:y"]⟩]⟩ ∧
    (empty.build (mixedCalls ++ [.notExact "app" "x:y"])).expressions =
      [⟨"env", .oneOf, ["prod", "dev"]⟩, ⟨"canary", .absent, []⟩, ⟨"app", .noneOf, ["x:y"]⟩] ∧
    empty.build (mixedCalls ++ [.isIn "a" ["b", "in"]]) = empty.build mixedCalls ∧
    Expression.Reports ⟨"a", .oneOf, ["b", "in"]⟩ (.notALabel "in") ∧
    Expression.Reports ⟨"tier", .noneOf, []⟩ (.noValues "tier") ∧
    empty.addAll (mixedCalls.map Call.expression) =
      (⟨[⟨"env", .oneOf, ["prod", "dev"]⟩]⟩, some (.notALabel "eu west")) := by
  have hbuilt : empty.build mixedCalls = ⟨[⟨"env", .oneOf, ["prod", "dev"]⟩, ⟨"canary", .absent, []⟩]⟩ := by decide
  have htext : (empty.build mixedCalls).text = "env in (prod, dev), !canary" := by decide
  have hadded : ((empty.build mixedCalls).call (.notExact "app" "x:y")).2 = none := by decide
  have hkeyword : ((empty.build mixedCalls).call (.isIn "a" ["b", "in"])).2 = some (.notALabel "in") := by decide
  have hmissing : ((empty.build mixedCalls).call (.notIn "tier" [])).2 = some (.noValues "tier") := by decide
  obtain ⟨hread, hnext, houtcomes, hchain⟩ := ofText_text_build.2 mixedCalls
  refine ⟨?_, (houtcomes.notExact "app" "x:y").succeeds.mp hadded, ?_, ?_,
    (houtcomes.isIn "a" ["b", "in"]).reports _ hkeyword, (houtcomes.notIn "tier" []).reports _ hmissing, ?_⟩
  · rw [← htext, ← hbuilt]
    exact hread
  · rw [hnext, (houtcomes.notExact "app" "x:y").appends hadded, hbuilt]
    rfl
  · rw [hnext]
    exact (houtcomes.isIn "a" ["b", "in"]).keeps _ hkeyword
  · rw [hchain]
    decide

end Selector

end LabelFilter
