import LabelFilter.Expression
import LabelFilter.Symbol

/-!
# The grammar of selectors

```text
selector   := ε | expression ("," expression)*
expression := name "in" list | name "notin" list | name "=" value | name "!=" value | "!" name | name
list       := "(" value ("," value)* ")"
```

A `Reader` reads a phrase at the start of a list of tokens, or stops at a token that it cannot use. The forms of an
expression are tried in the order of the grammar, each from the first token (`Reader.firstOf`). Of several forms
that stop, the one that got furthest tells where and why (`Stop.merge`).

A bare name is a form of its own, so what follows a name can stop no expression; it stops the search for a
separator. The longer forms are then read once more, for what they could have gone on with (`expressions`).
-/

namespace LabelFilter.Grammar

/-- A place where reading stopped. -/
structure Stop where
  /-- The tokens from the place on; none at the end. -/
  rest : List Token
  /-- What could have stood there, without repetition. -/
  expected : List Symbol
  deriving DecidableEq, Repr

namespace Stop

/-- The symbols of two lists, each where it first comes up. -/
def join (known more : List Symbol) : List Symbol :=
  more.foldl (fun known s => if s ∈ known then known else known ++ [s]) known

/-- Of two stops the one that got further. Two at one place are one, with what either expects. -/
def merge (s t : Stop) : Stop :=
  match compare s.rest.length t.rest.length with
  | .lt => s
  | .gt => t
  | .eq => ⟨s.rest, join s.expected t.expected⟩

end Stop

/-- Reads a phrase at the start of the tokens, and gives the tokens after it. -/
abbrev Reader (α : Type) := List Token → Except Stop (α × List Token)

namespace Reader

/-- A phrase of the first kind, or else one of the second. -/
def alternative {α : Type} (p q : Reader α) : Reader α := fun ts =>
  match p ts with
  | .ok r => .ok r
  | .error s =>
    match q ts with
    | .ok r => .ok r
    | .error t => .error (s.merge t)

/-- A phrase of the first of several kinds that there is. -/
def firstOf {α : Type} (p : Reader α) (ps : List (Reader α)) : Reader α := ps.foldl alternative p

end Reader

/-- A token of a kind. -/
def token (kind : TokenKind) : Reader Token
  | t :: ts => if t.kind = kind then .ok (t, ts) else .error ⟨t :: ts, [.token kind]⟩
  | [] => .error ⟨[], [.token kind]⟩

/-- The text of a label. -/
def label : Reader String
  | t :: ts => if t.kind = .label then .ok (t.label, ts) else .error ⟨t :: ts, [.token .label]⟩
  | [] => .error ⟨[], [.token .label]⟩

/-- The end of the tokens. -/
def ending : Reader Unit
  | t :: ts => .error ⟨t :: ts, [.ending]⟩
  | [] => .ok ((), [])

theorem token_eq_ok_iff {kind : TokenKind} {t : Token} {ts rest : List Token} :
    token kind ts = .ok (t, rest) ↔ ts = t :: rest ∧ t.kind = kind := by
  cases ts with
  | nil => simp [token]
  | cons u us =>
    by_cases h : u.kind = kind
    · simp only [token, if_pos h, Except.ok.injEq, Prod.mk.injEq, List.cons.injEq]
      exact ⟨fun ⟨hu, hus⟩ => ⟨⟨hu, hus⟩, hu ▸ h⟩, fun ⟨hu, _⟩ => hu⟩
    · simp only [token, if_neg h, reduceCtorEq, List.cons.injEq, false_iff]
      exact fun ⟨⟨hu, _⟩, hk⟩ => h (hu ▸ hk)

theorem label_eq_ok_iff {text : String} {ts rest : List Token} :
    label ts = .ok (text, rest) ↔ ∃ t : Token, ts = t :: rest ∧ t.kind = .label ∧ t.label = text := by
  cases ts with
  | nil => simp [label]
  | cons u us =>
    by_cases h : u.kind = .label
    · simp only [label, if_pos h, Except.ok.injEq, Prod.mk.injEq, List.cons.injEq]
      exact ⟨fun ⟨hu, hus⟩ => ⟨u, ⟨rfl, hus⟩, h, hu⟩, fun ⟨t, ⟨ht, hus⟩, _, hl⟩ => ⟨ht ▸ hl, hus⟩⟩
    · simp only [label, if_neg h, reduceCtorEq, List.cons.injEq, false_iff]
      exact fun ⟨t, ⟨hu, _⟩, hk, _⟩ => h (hu ▸ hk)

/-! ## Reading shortens -/

namespace Reader

/-- What is read is not empty. -/
def Shortens {α : Type} (p : Reader α) : Prop :=
  ∀ ts a rest, p ts = .ok (a, rest) → rest.length < ts.length

theorem Shortens.length_lt {α : Type} {p : Reader α} (hp : p.Shortens) {ts rest : List Token} {a : α}
    (h : p ts = .ok (a, rest)) : rest.length < ts.length := hp ts a rest h

/-- What is read in two steps is what the first gives to the second. -/
theorem bind_eq_ok {α β : Type} {x : Except Stop α} {f : α → Except Stop β} {b : β} (h : x >>= f = .ok b) :
    ∃ a, x = .ok a ∧ f a = .ok b := by
  cases x with
  | error s => cases h
  | ok a => exact ⟨a, rfl, h⟩

/-- What one of two readers reads, the first or the second reads. -/
theorem alternative_eq_ok {α : Type} {p q : Reader α} {ts : List Token} {r : α × List Token}
    (h : alternative p q ts = .ok r) : p ts = .ok r ∨ q ts = .ok r := by
  unfold alternative at h
  split at h
  next r' hp => exact Or.inl (hp.trans h)
  next =>
    split at h
    next r' hq => exact Or.inr (hq.trans h)
    next => cases h

theorem Shortens.alternative {α : Type} {p q : Reader α} (hp : p.Shortens) (hq : q.Shortens) :
    (p.alternative q).Shortens := by
  intro ts a rest h
  rcases alternative_eq_ok h with h | h
  · exact hp.length_lt h
  · exact hq.length_lt h

theorem Shortens.firstOf {α : Type} {p : Reader α} {ps : List (Reader α)} (hp : p.Shortens)
    (hps : ∀ q ∈ ps, q.Shortens) : (p.firstOf ps).Shortens := by
  induction ps generalizing p with
  | nil => exact hp
  | cons q ps ih =>
    simp only [List.forall_mem_cons] at hps
    exact ih (hp.alternative hps.1) hps.2

end Reader

open Reader

theorem token_shortens (kind : TokenKind) : (token kind).Shortens := by
  intro ts t rest h
  simp [(token_eq_ok_iff.mp h).1]

theorem label_shortens : label.Shortens := by
  intro ts text rest h
  obtain ⟨t, rfl, _⟩ := label_eq_ok_iff.mp h
  simp

/-! ## Value lists -/

/-- The mark after a value. -/
def listMark : Reader Token := (token .comma).alternative (token .closing)

theorem listMark_shortens : listMark.Shortens := (token_shortens .comma).alternative (token_shortens .closing)

/-- The values of a list up to its end, from the mark after a value on. -/
def moreValues (values : List String) (ts : List Token) : Except Stop (List String × List Token) :=
  match hm : listMark ts with
  | .error s => .error s
  | .ok (mark, rest) =>
    if mark.kind = .closing then .ok (values, rest)
    else
      match hl : label rest with
      | .error s => .error s
      | .ok (value, later) =>
        have := Nat.lt_trans (label_shortens.length_lt hl) (listMark_shortens.length_lt hm)
        moreValues (values ++ [value]) later
termination_by ts.length

theorem moreValues_shortens (values : List String) : Shortens (moreValues values) := by
  intro ts vs rest h
  fun_induction moreValues values ts with
  | case1 => cases h
  | case2 values ts mark later hm =>
    cases h
    exact listMark_shortens.length_lt hm
  | case3 => cases h
  | case4 values ts mark after hm _ value later hl _ ih =>
    exact Nat.lt_trans (ih h) (Nat.lt_trans (label_shortens.length_lt hl) (listMark_shortens.length_lt hm))

/-- A list of values in parentheses. -/
def valueList : Reader (List String) := fun ts => do
  let (_, ts) ← token .opening ts
  let (value, ts) ← label ts
  moreValues [value] ts

theorem valueList_shortens : valueList.Shortens := by
  intro ts values rest h
  obtain ⟨⟨_, ts₁⟩, h₁, h⟩ := bind_eq_ok h
  obtain ⟨⟨value, ts₂⟩, h₂, h⟩ := bind_eq_ok h
  have := (token_shortens _).length_lt h₁
  have := label_shortens.length_lt h₂
  have := (moreValues_shortens _).length_lt h
  omega

/-! ## Expressions -/

/-- A name, a keyword and a list. -/
def listed (keyword : TokenKind) (operator : Operator) : Reader Expression := fun ts => do
  let (name, ts) ← label ts
  let (_, ts) ← token keyword ts
  let (values, ts) ← valueList ts
  return (⟨name, operator, values⟩, ts)

/-- A name, a sign and a value. -/
def compared (sign : TokenKind) (operator : Operator) : Reader Expression := fun ts => do
  let (name, ts) ← label ts
  let (_, ts) ← token sign ts
  let (value, ts) ← label ts
  return (⟨name, operator, [value]⟩, ts)

def absent : Reader Expression := fun ts => do
  let (_, ts) ← token .bang ts
  let (name, ts) ← label ts
  return (.absent name, ts)

def present : Reader Expression := fun ts => do
  let (name, ts) ← label ts
  return (.present name, ts)

/-- The forms that go on after the name. -/
def operatorExpression : Reader Expression :=
  (listed .isIn .oneOf).firstOf [listed .notIn .noneOf, compared .equals .oneOf, compared .differs .noneOf]

def expression : Reader Expression := operatorExpression.firstOf [absent, present]

theorem listed_shortens (keyword : TokenKind) (operator : Operator) : (listed keyword operator).Shortens := by
  intro ts e rest h
  obtain ⟨⟨name, ts₁⟩, h₁, h⟩ := bind_eq_ok h
  obtain ⟨⟨_, ts₂⟩, h₂, h⟩ := bind_eq_ok h
  obtain ⟨⟨values, ts₃⟩, h₃, h⟩ := bind_eq_ok h
  cases h
  have := label_shortens.length_lt h₁
  have := (token_shortens _).length_lt h₂
  have := valueList_shortens.length_lt h₃
  omega

theorem compared_shortens (sign : TokenKind) (operator : Operator) : (compared sign operator).Shortens := by
  intro ts e rest h
  obtain ⟨⟨name, ts₁⟩, h₁, h⟩ := bind_eq_ok h
  obtain ⟨⟨_, ts₂⟩, h₂, h⟩ := bind_eq_ok h
  obtain ⟨⟨value, ts₃⟩, h₃, h⟩ := bind_eq_ok h
  cases h
  have := label_shortens.length_lt h₁
  have := (token_shortens _).length_lt h₂
  have := label_shortens.length_lt h₃
  omega

theorem absent_shortens : absent.Shortens := by
  intro ts e rest h
  obtain ⟨⟨_, ts₁⟩, h₁, h⟩ := bind_eq_ok h
  obtain ⟨⟨name, ts₂⟩, h₂, h⟩ := bind_eq_ok h
  cases h
  exact Nat.lt_trans (label_shortens.length_lt h₂) ((token_shortens _).length_lt h₁)

theorem present_shortens : present.Shortens := by
  intro ts e rest h
  obtain ⟨⟨name, ts₁⟩, h₁, h⟩ := bind_eq_ok h
  cases h
  exact label_shortens.length_lt h₁

theorem operatorExpression_shortens : operatorExpression.Shortens :=
  (listed_shortens _ _).firstOf (by simp [listed_shortens, compared_shortens])

theorem expression_shortens : expression.Shortens :=
  operatorExpression_shortens.firstOf (by simp [absent_shortens, present_shortens])

/-! ## Selectors -/

/-- What ends an expression: a comma, or the end of the tokens, which makes it the last one. -/
def separator : Reader Bool :=
  Reader.alternative (fun ts => (token .comma ts).map fun p => (false, p.2))
    (fun ts => (ending ts).map fun p => (true, p.2))

theorem separator_length {ts rest : List Token} {last : Bool} (h : separator ts = .ok (last, rest)) :
    rest.length ≤ ts.length := by
  cases ts with
  | nil => cases h; exact Nat.le_refl _
  | cons t ts =>
    by_cases hk : t.kind = .comma <;> simp [separator, alternative, token, ending, hk, Except.map] at h
    simp [← h.2]

/-- The expressions up to the end of the tokens, after those that were read before. A stop at a separator takes in
the stop of the longer forms: they were cut short by the same token, or further on. -/
def expressions (before : List Expression) (ts : List Token) : Except Stop (List Expression) :=
  match he : expression ts with
  | .error s => .error s
  | .ok (e, rest) =>
    match hs : separator rest with
    | .ok (true, _) => .ok (before ++ [e])
    | .ok (false, later) =>
      have := Nat.lt_of_le_of_lt (separator_length hs) (expression_shortens.length_lt he)
      expressions (before ++ [e]) later
    | .error s =>
      match operatorExpression ts with
      | .error longer => .error (longer.merge s)
      | .ok _ => .error s
termination_by ts.length

/-- The expressions of a list of tokens. No tokens are the empty selector, though no expression is empty. -/
def parse (tokens : List Token) : Except Stop (List Expression) :=
  if tokens.isEmpty then .ok [] else expressions [] tokens

end LabelFilter.Grammar
