import LabelFilter.Proofs.Grammar.Automaton

/-!
# Trying the forms is reading from left to right

`expressions` tries one form of an expression after the other, where a bare name succeeds at the start of every longer
form. It reads what `run` reads, and stops where `run` stops (`readsAsRun`, `parse_eq_run`):

- the forms that go on after a name differ in their second token, so at most one of them gets past it; the stops of
  the others lie before its own and are dropped (`Reader.firstOf_eq`);
- when the form that goes on is cut short, the bare name before it is no expression either: what follows it is no
  separator, and the stop of the longer form lies further on (`readsAsRun_of_operator`);
- when no form goes on, all stops lie behind the name and are joined (`readsAsRun_of_name`).
-/

namespace LabelFilter.Grammar

open Reader

/-! ## Merging stops -/

namespace Stop

theorem merge_of_lt {s t : Stop} (h : s.rest.length < t.rest.length) : s.merge t = s := by
  simp only [merge, Nat.compare_eq_lt.mpr h]

theorem merge_of_gt {s t : Stop} (h : t.rest.length < s.rest.length) : s.merge t = t := by
  simp only [merge, Nat.compare_eq_gt.mpr h]

@[simp] theorem merge_mk (rest : List Token) (xs ys : List Symbol) :
    (⟨rest, xs⟩ : Stop).merge ⟨rest, ys⟩ = ⟨rest, join xs ys⟩ := by
  simp only [merge, Nat.compare_eq_eq.mpr rfl]

end Stop

section Alternatives

variable {α : Type} {p q : Reader α} {ts rest : List Token} {r : α × List Token} {s t : Stop}

theorem Reader.alternative_of_ok (h : p ts = .ok r) : p.alternative q ts = .ok r := by
  simp only [alternative, h]

theorem Reader.alternative_of_error_ok (hp : p ts = .error s) (hq : q ts = .ok r) : p.alternative q ts = .ok r := by
  simp only [alternative, hp, hq]

theorem Reader.alternative_of_error (hp : p ts = .error s) (hq : q ts = .error t) :
    p.alternative q ts = .error (s.merge t) := by
  simp only [alternative, hp, hq]

/-- The stops of a reader, if any, lie before the tokens `rest`. -/
def StopsWithin (p : Reader α) (ts rest : List Token) : Prop := ∀ s, p ts = .error s → s.rest.length < rest.length

/-- If the first reader gets past the stop of the second, the second does not count. -/
theorem Reader.alternative_eq_left {ys : List Symbol} (hp : StopsWithin p ts rest) (hq : q ts = .error ⟨rest, ys⟩) :
    p.alternative q ts = p ts := by
  cases h : p ts with
  | ok r => exact alternative_of_ok h
  | error s => rw [alternative_of_error h hq, Stop.merge_of_lt (hp s h)]

/-- If the second reader gets past the stop of the first, the first does not count. -/
theorem Reader.alternative_eq_right {xs : List Symbol} (hp : p ts = .error ⟨rest, xs⟩) (hq : StopsWithin q ts rest) :
    p.alternative q ts = q ts := by
  cases h : q ts with
  | ok r => exact alternative_of_error_ok hp h
  | error s => rw [alternative_of_error hp h, Stop.merge_of_gt (hq s h)]

theorem StopsWithin.of_eq (hp : StopsWithin p ts rest) (h : q ts = p ts) : StopsWithin q ts rest :=
  fun s hs => hp s (h.symm.trans hs)

/-- The reader stops at the tokens `rest`. -/
def StopsAt (p : Reader α) (ts rest : List Token) : Prop := ∃ xs, p ts = .error ⟨rest, xs⟩

/-- If no reader gets past one place, all stop there. -/
theorem Reader.firstOf_stopsAt {ps : List (Reader α)} (hp : StopsAt p ts rest) (hps : ∀ q ∈ ps, StopsAt q ts rest) :
    StopsAt (p.firstOf ps) ts rest := by
  induction ps generalizing p with
  | nil => exact hp
  | cons q ps ih =>
    simp only [List.forall_mem_cons] at hps
    obtain ⟨xs, hxs⟩ := hp
    obtain ⟨ys, hys⟩ := hps.1
    exact ih ⟨_, (alternative_of_error hxs hys).trans (by rw [Stop.merge_mk])⟩ hps.2

/-- If the first reader gets past the place where all others stop, the others do not count. -/
theorem Reader.firstOf_eq_first {ps : List (Reader α)} (hp : StopsWithin p ts rest)
    (hps : ∀ q ∈ ps, StopsAt q ts rest) : p.firstOf ps ts = p ts := by
  induction ps generalizing p with
  | nil => rfl
  | cons q ps ih =>
    simp only [List.forall_mem_cons] at hps
    obtain ⟨ys, hys⟩ := hps.1
    have hq := alternative_eq_left hp hys
    exact (ih (hp.of_eq hq) hps.2).trans hq

/-- If one reader gets past the place where all others stop, the others do not count. -/
theorem Reader.firstOf_eq (before after : List (Reader α)) (hp : StopsAt p ts rest)
    (hbefore : ∀ r ∈ before, StopsAt r ts rest) (hq : StopsWithin q ts rest) (hafter : ∀ r ∈ after, StopsAt r ts rest) :
    p.firstOf (before ++ q :: after) ts = q ts := by
  obtain ⟨xs, hxs⟩ := firstOf_stopsAt hp hbefore
  have hright := alternative_eq_right hxs hq
  have : p.firstOf (before ++ q :: after) = ((p.firstOf before).alternative q).firstOf after := by
    simp [firstOf, List.foldl_append]
  rw [this]
  exact (firstOf_eq_first (hq.of_eq hright) hafter).trans hright

end Alternatives

/-! ## Symbols that are not wanted -/

section Unwanted

variable {ts : List Token}

theorem token_of_front_ne {kind : TokenKind} (h : front ts ≠ .token kind) :
    token kind ts = .error ⟨ts, [.token kind]⟩ := by
  cases ts with
  | nil => rfl
  | cons t ts => exact if_neg fun hk => h (congrArg Symbol.token hk)

theorem label_of_front_ne (h : front ts ≠ .token .label) : label ts = .error ⟨ts, [.token .label]⟩ := by
  cases ts with
  | nil => rfl
  | cons t ts => exact if_neg fun hk => h (congrArg Symbol.token hk)

theorem listMark_of_front_not_mem (h : front ts ∉ Place.listed.expected) :
    listMark ts = .error ⟨ts, Place.listed.expected⟩ := by
  simp only [Place.expected, List.mem_cons, List.not_mem_nil, or_false, not_or] at h
  exact (alternative_of_error (token_of_front_ne h.1) (token_of_front_ne h.2)).trans (by rw [Stop.merge_mk]; rfl)

theorem separator_of_front_not_mem (h : front ts ∉ Place.complete.expected) :
    separator ts = .error ⟨ts, Place.complete.expected⟩ := by
  simp only [Place.expected, List.mem_cons, List.not_mem_nil, or_false, not_or] at h
  cases ts with
  | nil => exact absurd rfl h.2
  | cons t ts =>
    have comma : (token .comma (t :: ts)).map (fun p => (false, p.2)) = .error ⟨t :: ts, [.token .comma]⟩ := by
      rw [token_of_front_ne h.1]; rfl
    exact (alternative_of_error comma rfl).trans (by rw [Stop.merge_mk]; rfl)

end Unwanted

/-! ## Value lists -/

theorem listMark_eq_ok {ts rest : List Token} {t : Token} (h : listMark ts = .ok (t, rest)) :
    ts = t :: rest ∧ (t.kind = .comma ∨ t.kind = .closing) := by
  rcases alternative_eq_ok h with h | h
  · exact ⟨(token_eq_ok_iff.mp h).1, Or.inl (token_eq_ok_iff.mp h).2⟩
  · exact ⟨(token_eq_ok_iff.mp h).1, Or.inr (token_eq_ok_iff.mp h).2⟩

/-- A reader of expressions agrees with the run from a state: it reads a phrase that the run reads as well, or stops
where the run stops. -/
def Agrees (state : State) (ts : List Token) : Except Stop (Expression × List Token) → Prop
  | .ok (e, rest) => ∃ p : Phrase, p.expression = e ∧ run state ts = run (.complete p) rest
  | .error s => run state ts = .error s

theorem Agrees.of_run_eq {state later : State} {ts us : List Token} {r : Except Stop (Expression × List Token)}
    (h : Agrees later us r) (hr : run state ts = run later us) : Agrees state ts r := by
  unfold Agrees at h ⊢
  rwa [hr]

/-- The expression of a list that has been read. -/
def withValues (name : String) (operator : Operator) (r : Except Stop (List String × List Token)) :
    Except Stop (Expression × List Token) :=
  r.map fun p => (⟨name, operator, p.1⟩, p.2)

theorem run_listed_comma (name first : String) (side : Side) (more : List String) {mark : Token} (ts : List Token)
    (h : mark.kind = .comma) :
    run (.listed name side first more) (mark :: ts) = run (.wanting name side first more) ts := by
  simp [run, Token.terminal, State.next?, h, Terminal.mark]

theorem run_listed_closing (name first : String) (side : Side) (more : List String) {mark : Token} (ts : List Token)
    (h : mark.kind = .closing) :
    run (.listed name side first more) (mark :: ts) = run (.complete (.listed name side first more)) ts := by
  simp [run, Token.terminal, State.next?, h, Terminal.mark]

theorem run_wanting_label (name first : String) (side : Side) (more : List String) {t : Token} (ts : List Token)
    (h : t.kind = .label) :
    run (.wanting name side first more) (t :: ts) = run (.listed name side first (more ++ [t.label])) ts := by
  simp [run, Token.terminal, State.next?, h, Terminal.label]

/-- The values up to the end of a list. -/
theorem agrees_moreValues (name first : String) (side : Side) (more : List String) (ts : List Token) :
    Agrees (.listed name side first more) ts (withValues name side.operator (moreValues (first :: more) ts)) := by
  generalize hv : first :: more = values
  fun_induction moreValues values ts generalizing more with
  | case1 values ts s hm =>
    have hf : front ts ∉ Place.listed.expected := by
      intro hf
      simp only [Place.expected, List.mem_cons, List.not_mem_nil, or_false] at hf
      rcases hf with hf | hf
      all_goals
        obtain ⟨t, us, rfl, hk⟩ := front_eq_token_iff.mp hf
        simp [listMark, alternative, token, hk] at hm
    rw [listMark_of_front_not_mem hf] at hm
    cases hm
    exact run_of_front_not_mem hf
  | case2 values ts mark rest hm hk =>
    obtain ⟨rfl, _⟩ := listMark_eq_ok hm
    subst hv
    exact ⟨.listed name side first more, rfl, run_listed_closing name first side more rest hk⟩
  | case3 values ts mark rest hm hk s hl =>
    obtain ⟨rfl, hc⟩ := listMark_eq_ok hm
    have hrun := run_listed_comma name first side more rest (hc.resolve_right hk)
    have hf : front rest ≠ .token .label := by
      intro hf
      obtain ⟨t, us, rfl, hk⟩ := front_eq_token_iff.mp hf
      simp [label, hk] at hl
    rw [label_of_front_ne hf] at hl
    cases hl
    exact hrun.trans (run_of_front_not_mem (by simpa [State.place, Place.expected] using hf))
  | case4 values ts mark rest hm hk value later hl _ ih =>
    obtain ⟨rfl, hc⟩ := listMark_eq_ok hm
    obtain ⟨t, rfl, ht, rfl⟩ := label_eq_ok_iff.mp hl
    subst hv
    have hrun := run_listed_comma name first side more (t :: later) (hc.resolve_right hk)
    exact (ih (more ++ [t.label]) rfl).of_run_eq (hrun.trans (run_wanting_label name first side more later ht))

/-- A list from its opening parenthesis on. -/
theorem agrees_valueList (name : String) (side : Side) (ts : List Token) :
    Agrees (.listing name side) ts (withValues name side.operator (valueList ts)) := by
  by_cases hf : front ts = .token .opening
  · obtain ⟨t, ts, rfl, ht⟩ := front_eq_token_iff.mp hf
    have hopen : run (.listing name side) (t :: ts) = run (.opened name side) ts := by
      simp [run, Token.terminal, State.next?, ht, Terminal.mark]
    by_cases hl : front ts = .token .label
    · obtain ⟨u, us, rfl, hu⟩ := front_eq_token_iff.mp hl
      have hlabel : run (.opened name side) (u :: us) = run (.listed name side u.label []) us := by
        simp [run, Token.terminal, State.next?, hu, Terminal.label]
      have hlist : valueList (t :: u :: us) = moreValues [u.label] us := by
        simp [valueList, token, label, ht, hu, bind, Except.bind]
      rw [hlist]
      exact (agrees_moreValues name u.label side [] us).of_run_eq (hopen.trans hlabel)
    · have hlist : valueList (t :: ts) = .error ⟨ts, [.token .label]⟩ := by
        simp [valueList, token, label_of_front_ne hl, ht, bind, Except.bind]
      rw [hlist]
      exact hopen.trans (run_of_front_not_mem (by simpa [State.place, Place.expected] using hl))
  · have hlist : valueList ts = .error ⟨ts, [.token .opening]⟩ := by
      simp [valueList, token_of_front_ne hf, bind, Except.bind]
    rw [hlist]
    exact run_of_front_not_mem (by simpa [State.place, Place.expected] using hf)

/-- A list stops at a last part of its tokens. -/
theorem valueList_stop_length {ts : List Token} {s : Stop} (h : valueList ts = .error s) :
    s.rest.length ≤ ts.length := by
  have := agrees_valueList "" .inside ts
  rw [h] at this
  exact length_le_of_run_eq_error this

/-! ## Expressions -/

section Forms

variable {t u : Token} {ts us : List Token} (kind : TokenKind) (operator : Operator)

/-- A name without its keyword stops a list. -/
theorem listed_of_front_ne (ht : t.kind = .label) (h : front ts ≠ .token kind) :
    listed kind operator (t :: ts) = .error ⟨ts, [.token kind]⟩ := by
  simp [listed, label, ht, token_of_front_ne h, bind, Except.bind]

/-- A name without its sign stops a comparison. -/
theorem compared_of_front_ne (ht : t.kind = .label) (h : front ts ≠ .token kind) :
    compared kind operator (t :: ts) = .error ⟨ts, [.token kind]⟩ := by
  simp [compared, label, ht, token_of_front_ne h, bind, Except.bind]

theorem listed_of_keyword (ht : t.kind = .label) (hu : u.kind = kind) :
    listed kind operator (t :: u :: us) = withValues t.label operator (valueList us) := by
  simp only [listed, label, ht, token, hu, if_true, bind, Except.bind, withValues]
  cases valueList us <;> rfl

theorem compared_of_sign (ht : t.kind = .label) (hu : u.kind = kind) :
    compared kind operator (t :: u :: us) = (label us).map fun p => (⟨t.label, operator, [p.1]⟩, p.2) := by
  simp only [compared, label, ht, token, hu, if_true, bind, Except.bind]
  cases label us <;> rfl

theorem listed_stopsWithin (us : List Token) (ht : t.kind = .label) (hu : u.kind = kind) :
    StopsWithin (listed kind operator) (t :: u :: us) (u :: us) := by
  intro s h
  rw [listed_of_keyword kind operator ht hu] at h
  cases hv : valueList us with
  | ok r => rw [hv] at h; cases h
  | error s' =>
    rw [hv] at h
    cases h
    exact Nat.lt_succ_of_le (valueList_stop_length hv)

theorem compared_stopsWithin (us : List Token) (ht : t.kind = .label) (hu : u.kind = kind) :
    StopsWithin (compared kind operator) (t :: u :: us) (u :: us) := by
  intro s h
  rw [compared_of_sign kind operator ht hu] at h
  by_cases hl : front us = .token .label
  · obtain ⟨v, vs, rfl, hv⟩ := front_eq_token_iff.mp hl
    simp [label, hv, Except.map] at h
  · rw [label_of_front_ne hl] at h
    cases h
    exact Nat.lt_succ_self _

end Forms

section Names

variable {t u : Token} {ts us : List Token}

/-- The symbols with which an expression goes on after its name. -/
def operators : List Symbol := [.token .isIn, .token .notIn, .token .equals, .token .differs]

/-- If no form goes on after a name, all stop behind it. -/
theorem operatorExpression_of_front_not_mem (ht : t.kind = .label) (h : front ts ∉ operators) :
    operatorExpression (t :: ts) = .error ⟨ts, operators⟩ := by
  simp only [operators, List.mem_cons, List.not_mem_nil, or_false, not_or] at h
  obtain ⟨hin, hnotIn, hequals, hdiffers⟩ := h
  have lists := alternative_of_error (listed_of_front_ne _ .oneOf ht hin) (listed_of_front_ne _ .noneOf ht hnotIn)
  have equals := alternative_of_error lists (compared_of_front_ne _ .oneOf ht hequals)
  have differs := alternative_of_error equals (compared_of_front_ne _ .noneOf ht hdiffers)
  exact differs.trans (by simp only [Stop.merge_mk]; rfl)

theorem listed_stopsAt (side : Side) (us : List Token) (ht : t.kind = .label) (hu : u.kind ≠ side.keyword) :
    StopsAt (listed side.keyword side.operator) (t :: u :: us) (u :: us) :=
  ⟨_, listed_of_front_ne _ _ ht fun h => hu (Symbol.token.inj h)⟩

theorem compared_stopsAt (side : Side) (us : List Token) (ht : t.kind = .label) (hu : u.kind ≠ side.sign) :
    StopsAt (compared side.sign side.operator) (t :: u :: us) (u :: us) :=
  ⟨_, compared_of_front_ne _ _ ht fun h => hu (Symbol.token.inj h)⟩

/-- After a name and a keyword there is a list. -/
theorem operatorExpression_of_keyword (side : Side) (us : List Token) (ht : t.kind = .label)
    (hu : u.kind = side.keyword) :
    operatorExpression (t :: u :: us) = listed side.keyword side.operator (t :: u :: us) := by
  have within := listed_stopsWithin _ side.operator us ht hu
  have equals := compared_stopsAt .inside us ht (by rw [hu]; cases side <;> decide)
  have differs := compared_stopsAt .outside us ht (by rw [hu]; cases side <;> decide)
  cases side with
  | inside =>
    have notIn := listed_stopsAt .outside us ht (by rw [hu]; decide)
    exact firstOf_eq_first within (by simpa [Side.keyword, Side.sign, Side.operator] using ⟨notIn, equals, differs⟩)
  | outside =>
    have isIn := listed_stopsAt .inside us ht (by rw [hu]; decide)
    exact firstOf_eq [] _ isIn (by simp) within (by simpa [Side.sign, Side.operator] using ⟨equals, differs⟩)

/-- After a name and a sign there is a comparison. -/
theorem operatorExpression_of_sign (side : Side) (us : List Token) (ht : t.kind = .label) (hu : u.kind = side.sign) :
    operatorExpression (t :: u :: us) = compared side.sign side.operator (t :: u :: us) := by
  have within := compared_stopsWithin _ side.operator us ht hu
  have isIn := listed_stopsAt .inside us ht (by rw [hu]; cases side <;> decide)
  have notIn := listed_stopsAt .outside us ht (by rw [hu]; cases side <;> decide)
  cases side with
  | inside =>
    have differs := compared_stopsAt .outside us ht (by rw [hu]; decide)
    exact firstOf_eq [listed .notIn .noneOf] _ isIn (by simpa [Side.keyword, Side.operator] using notIn) within
      (by simpa [Side.sign, Side.operator] using differs)
  | outside =>
    have equals := compared_stopsAt .inside us ht (by rw [hu]; decide)
    exact firstOf_eq [listed .notIn .noneOf, compared .equals .oneOf] [] isIn
      (by simpa [Side.keyword, Side.sign, Side.operator] using ⟨notIn, equals⟩) within (by simp)

/-- If an expression goes on after its name, it agrees with the run, and stops behind the name. -/
theorem operatorExpression_agrees (ht : t.kind = .label) (h : front ts ∈ operators) :
    Agrees (.named t.label) ts (operatorExpression (t :: ts)) ∧ StopsWithin operatorExpression (t :: ts) ts := by
  have hside : ∃ side : Side, front ts = .token side.keyword ∨ front ts = .token side.sign := by
    simp only [operators, List.mem_cons, List.not_mem_nil, or_false] at h
    rcases h with h | h | h | h
    · exact ⟨.inside, Or.inl h⟩
    · exact ⟨.outside, Or.inl h⟩
    · exact ⟨.inside, Or.inr h⟩
    · exact ⟨.outside, Or.inr h⟩
  obtain ⟨side, hf | hf⟩ := hside
  · obtain ⟨u, us, rfl, hu⟩ := front_eq_token_iff.mp hf
    have hform := operatorExpression_of_keyword side us ht hu
    have hrun : run (.named t.label) (u :: us) = run (.listing t.label side) us := by
      cases side <;> simp [run, Token.terminal, State.next?, hu, Terminal.mark, Side.keyword]
    refine ⟨?_, (listed_stopsWithin _ _ us ht hu).of_eq hform⟩
    rw [hform, listed_of_keyword _ _ ht hu]
    exact (agrees_valueList t.label side us).of_run_eq hrun
  · obtain ⟨u, us, rfl, hu⟩ := front_eq_token_iff.mp hf
    have hform := operatorExpression_of_sign side us ht hu
    have hrun : run (.named t.label) (u :: us) = run (.comparing t.label side) us := by
      cases side <;> simp [run, Token.terminal, State.next?, hu, Terminal.mark, Side.sign]
    refine ⟨?_, (compared_stopsWithin _ _ us ht hu).of_eq hform⟩
    rw [hform, compared_of_sign _ _ ht hu]
    by_cases hl : front us = .token .label
    · obtain ⟨v, vs, rfl, hv⟩ := front_eq_token_iff.mp hl
      have hvalue : run (.comparing t.label side) (v :: vs) = run (.complete (.compared t.label side v.label)) vs := by
        simp [run, Token.terminal, State.next?, hv, Terminal.label]
      have hlabel : label (v :: vs) = .ok (v.label, vs) := if_pos hv
      rw [hlabel]
      exact ⟨.compared t.label side v.label, rfl, hrun.trans hvalue⟩
    · rw [label_of_front_ne hl]
      exact hrun.trans (run_of_front_not_mem (by simpa [State.place, Place.expected] using hl))

end Names

/-- No form that begins with a name begins with anything else. -/
theorem operatorExpression_of_front_ne {ts : List Token} (h : front ts ≠ .token .label) :
    operatorExpression ts = .error ⟨ts, [.token .label]⟩ := by
  simp [operatorExpression, firstOf, alternative, listed, compared, label_of_front_ne h, bind, Except.bind, Stop.join]

/-! ## Selectors -/

/-- Trying the forms one after the other reads the phrases that the run reads, and stops where it stops. -/
def ReadsAsRun (ts : List Token) : Prop :=
  ∀ before, expressions before ts = (fun ps => before ++ ps.map Phrase.expression) <$> run .start ts

/-- The stop at what follows an expression. -/
def stopAfter (ts rest : List Token) : Stop :=
  match operatorExpression ts with
  | .error longer => longer.merge ⟨rest, Place.complete.expected⟩
  | .ok _ => ⟨rest, Place.complete.expected⟩

section Selectors

variable {ts rest : List Token} {e : Expression} (before : List Expression)

theorem expressions_of_error {s : Stop} (h : expression ts = .error s) : expressions before ts = .error s := by
  rw [expressions]
  split
  next s' h' => exact congrArg Except.error (Except.error.inj (h'.symm.trans h))
  next h' => cases h'.symm.trans h

/-- After an expression comes a separator, or the stop of the longer forms is merged with that of the separator. -/
theorem expressions_of_ok (h : expression ts = .ok (e, rest)) :
    expressions before ts =
      match separator rest with
      | .ok (true, _) => .ok (before ++ [e])
      | .ok (false, later) => expressions (before ++ [e]) later
      | .error s =>
        match operatorExpression ts with
        | .error longer => .error (longer.merge s)
        | .ok _ => .error s := by
  rw [expressions]
  split
  next s' h' => cases h'.symm.trans h
  next e' rest' h' =>
    cases h'.symm.trans h
    split
    next hs => simp only [hs]
    next hs => simp only [hs]
    next s hs =>
      cases operatorExpression ts with
      | error longer => simp only [hs]
      | ok _ => simp only [hs]

theorem expressions_of_stop (h : expression ts = .ok (e, rest)) (hf : front rest ∉ Place.complete.expected) :
    expressions before ts = .error (stopAfter ts rest) := by
  rw [expressions_of_ok before h, separator_of_front_not_mem hf, stopAfter]
  cases operatorExpression ts <;> rfl

end Selectors

section Steps

variable {t : Token} {ts rest : List Token}

/-- A phrase and what follows it: the end, a comma and more phrases, or a stop. -/
theorem readsAsRun_of_phrase {state : State} {p : Phrase} (h : expression ts = .ok (p.expression, rest))
    (hrun : run .start ts = run state rest) (hstate : state.phrase? = some p)
    (hstop : front rest ∉ Place.complete.expected → run state rest = .error (stopAfter ts rest))
    (ih : ∀ us, us.length < ts.length → ReadsAsRun us) : ReadsAsRun ts := by
  intro before
  rw [hrun]
  by_cases hf : front rest ∈ Place.complete.expected
  · rw [expressions_of_ok before h]
    simp only [Place.expected, List.mem_cons, List.not_mem_nil, or_false] at hf
    rcases hf with hf | hf
    · obtain ⟨u, later, rfl, hu⟩ := front_eq_token_iff.mp hf
      have hsep : separator (u :: later) = .ok (false, later) := by
        simp [separator, alternative, token, hu, Except.map]
      have hcomma : run state (u :: later) = (p :: ·) <$> run .start later := by
        rw [run, Token.terminal, if_neg (by rw [hu]; decide), hu, State.next?_comma_of_phrase? hstate]
      have hlater := ih later (Nat.lt_trans (Nat.lt_succ_self _) (expression_shortens.length_lt h))
      simp only [hsep, hcomma, hlater (before ++ [p.expression])]
      cases run .start later <;> simp [Functor.map, Except.map]
    · obtain rfl := front_eq_ending_iff.mp hf
      have hsep : separator [] = .ok (true, []) := rfl
      rw [hsep, run, hstate]
      rfl
  · rw [expressions_of_stop before h hf, hstop hf]
    rfl

theorem present_of_name (ht : t.kind = .label) : present (t :: ts) = .ok (.present t.label, ts) := by
  simp [present, label, ht, bind, Except.bind, pure, Except.pure]

theorem absent_of_name (ht : t.kind = .label) : absent (t :: ts) = .error ⟨t :: ts, [.token .bang]⟩ := by
  simp [absent, token, ht, bind, Except.bind]

theorem run_start_name (ht : t.kind = .label) : run .start (t :: ts) = run (.named t.label) ts := by
  simp [run, Token.terminal, State.next?, ht, Terminal.label]

/-- After a name, an operator: the longer form is the expression, or it is cut short further on than the name. -/
theorem readsAsRun_of_operator (ht : t.kind = .label) (hop : front ts ∈ operators)
    (ih : ∀ us, us.length < (t :: ts).length → ReadsAsRun us) : ReadsAsRun (t :: ts) := by
  obtain ⟨hagrees, hwithin⟩ := operatorExpression_agrees ht hop
  cases hexp : operatorExpression (t :: ts) with
  | ok r =>
    obtain ⟨e, rest⟩ := r
    rw [hexp] at hagrees
    obtain ⟨p, rfl, hrun⟩ := hagrees
    have he : expression (t :: ts) = .ok (p.expression, rest) := by simp [expression, firstOf, alternative, hexp]
    refine readsAsRun_of_phrase he ((run_start_name ht).trans hrun) rfl (fun hf => ?_) ih
    rw [stopAfter, hexp]
    exact run_of_front_not_mem hf
  | error s =>
    rw [hexp] at hagrees
    have he : expression (t :: ts) = .ok (.present t.label, ts) := by
      simp [expression, firstOf, alternative, hexp, absent_of_name ht, present_of_name ht]
    -- an operator is no separator
    have hf : front ts ∉ Place.complete.expected := by
      intro hc
      simp only [operators, Place.expected, List.mem_cons, List.not_mem_nil, or_false] at hop hc
      rcases hc with hc | hc <;> simp [hc] at hop
    have hstop : stopAfter (t :: ts) ts = s := by
      rw [stopAfter, hexp]
      exact Stop.merge_of_lt (hwithin s hexp)
    intro before
    rw [expressions_of_stop before he hf, hstop, run_start_name ht, hagrees]
    rfl

/-- After a name, no operator: the name is the expression. -/
theorem readsAsRun_of_name (ht : t.kind = .label) (hop : front ts ∉ operators)
    (ih : ∀ us, us.length < (t :: ts).length → ReadsAsRun us) : ReadsAsRun (t :: ts) := by
  have hexp := operatorExpression_of_front_not_mem ht hop
  have he : expression (t :: ts) = .ok ((Phrase.present t.label).expression, ts) := by
    simp [expression, firstOf, alternative, hexp, absent_of_name ht, present_of_name ht, Phrase.expression]
  refine readsAsRun_of_phrase he (run_start_name ht) rfl (fun hf => ?_) ih
  have hnamed : front ts ∉ (State.named t.label).place.expected := by
    simp only [operators, Place.expected, List.mem_cons, List.not_mem_nil, or_false, not_or, State.place] at hop hf ⊢
    exact ⟨hop.1, hop.2.1, hop.2.2.1, hop.2.2.2, hf.1, hf.2⟩
  rw [run_of_front_not_mem hnamed, stopAfter, hexp]
  simp only [Stop.merge_mk]
  rfl

/-- After `!` there must be a name. -/
theorem readsAsRun_of_bang (ht : t.kind = .bang)
    (ih : ∀ us, us.length < (t :: ts).length → ReadsAsRun us) : ReadsAsRun (t :: ts) := by
  have hexp : operatorExpression (t :: ts) = .error ⟨t :: ts, [.token .label]⟩ :=
    operatorExpression_of_front_ne (by simp [front, ht])
  have hstart : run .start (t :: ts) = run .negated ts := by
    simp [run, Token.terminal, State.next?, ht, Terminal.mark]
  by_cases hname : front ts = .token .label
  · obtain ⟨u, us, rfl, hu⟩ := front_eq_token_iff.mp hname
    have hrun : run .negated (u :: us) = run (.complete (.absent u.label)) us := by
      simp [run, Token.terminal, State.next?, hu, Terminal.label]
    have habsent : absent (t :: u :: us) = .ok (.absent u.label, us) := by
      simp [absent, token, label, ht, hu, bind, Except.bind, pure, Except.pure]
    have he : expression (t :: u :: us) = .ok ((Phrase.absent u.label).expression, us) := by
      simp [expression, firstOf, alternative, hexp, habsent, Phrase.expression]
    refine readsAsRun_of_phrase he (hstart.trans hrun) rfl (fun hf => ?_) ih
    have hlt : us.length < (t :: u :: us).length := by simp only [List.length_cons]; omega
    rw [run_of_front_not_mem hf, stopAfter, hexp]
    exact congrArg Except.error (Stop.merge_of_gt hlt).symm
  · have habsent : absent (t :: ts) = .error ⟨ts, [.token .label]⟩ := by
      simp [absent, token, label_of_front_ne hname, ht, bind, Except.bind]
    have hpresent : present (t :: ts) = .error ⟨t :: ts, [.token .label]⟩ := by
      simp [present, label, ht, bind, Except.bind]
    have hwithin : StopsWithin absent (t :: ts) (t :: ts) := by
      intro s hs
      cases habsent.symm.trans hs
      exact Nat.lt_succ_self _
    have he : expression (t :: ts) = absent (t :: ts) :=
      firstOf_eq [] _ ⟨_, hexp⟩ (by simp) hwithin (by simpa using ⟨_, hpresent⟩)
    intro before
    rw [expressions_of_error before (he.trans habsent), hstart,
      run_of_front_not_mem (by simpa [State.place, Place.expected] using hname)]
    rfl

/-- Nothing else begins an expression. -/
theorem readsAsRun_of_front_not_mem (hf : front ts ∉ Place.start.expected) : ReadsAsRun ts := by
  have hstart : run .start ts = .error ⟨ts, Place.start.expected⟩ := run_of_front_not_mem hf
  simp only [Place.expected, List.mem_cons, List.not_mem_nil, or_false, not_or] at hf
  have hexp := operatorExpression_of_front_ne hf.1
  have habsent : absent ts = .error ⟨ts, [.token .bang]⟩ := by
    simp [absent, token_of_front_ne hf.2, bind, Except.bind]
  have hpresent : present ts = .error ⟨ts, [.token .label]⟩ := by
    simp [present, label_of_front_ne hf.1, bind, Except.bind]
  have he : expression ts = .error ⟨ts, Place.start.expected⟩ := by
    simp [expression, firstOf, alternative, hexp, habsent, hpresent, Stop.join, Place.expected]
  intro before
  rw [expressions_of_error before he, hstart]
  rfl

end Steps

/-- The forms tried one after the other, and one reading from left to right, come to the same. -/
theorem readsAsRun (ts : List Token) : ReadsAsRun ts := by
  induction hn : ts.length using Nat.strongRecOn generalizing ts with
  | _ n ih =>
  subst hn
  replace ih : ∀ us, us.length < ts.length → ReadsAsRun us := fun us h => ih us.length h us rfl
  by_cases hf : front ts ∈ Place.start.expected
  · simp only [Place.expected, List.mem_cons, List.not_mem_nil, or_false] at hf
    rcases hf with hf | hf
    · obtain ⟨t, ts, rfl, ht⟩ := front_eq_token_iff.mp hf
      by_cases hop : front ts ∈ operators
      · exact readsAsRun_of_operator ht hop ih
      · exact readsAsRun_of_name ht hop ih
    · obtain ⟨t, ts, rfl, ht⟩ := front_eq_token_iff.mp hf
      exact readsAsRun_of_bang ht ih
  · exact readsAsRun_of_front_not_mem hf

/-- The expressions of a list of tokens are those of its phrases. -/
theorem parse_eq_run {ts : List Token} (h : ts ≠ []) : parse ts = List.map Phrase.expression <$> run .start ts := by
  obtain ⟨t, ts, rfl⟩ := List.exists_cons_of_ne_nil h
  exact readsAsRun (t :: ts) []

end LabelFilter.Grammar
