import LabelFilter.Proofs.Grammar.Derivation

/-!
# Reading from left to right

One token decides how a phrase goes on, so a list of tokens can be read without looking back. A `State` is what has
been read of the phrase under way, and a `Place` is a state without its texts: it knows which kinds of tokens may
come. `run` reads a list of tokens from a state, up to the first symbol that the state cannot go on with.

- `run_eq_ok_iff`: the phrases that are read are the derivation of the tokens, and what is no derivation is not read;
- `walk_of_run_eq_error`: reading stops at a symbol that the place there does not expect.
-/

namespace LabelFilter.Grammar

/-! ## Places -/

/-- How far a phrase has been read. -/
inductive Place
  /-- A phrase begins. -/
  | start
  /-- After a name, which may be all of a phrase. -/
  | named
  /-- After `!`. -/
  | negated
  /-- After a sign. -/
  | comparing
  /-- After a keyword. -/
  | listing
  /-- After the opening parenthesis. -/
  | opened
  /-- In a list, after a value. -/
  | listed
  /-- In a list, after a comma. -/
  | wanting
  /-- After a phrase that cannot go on. -/
  | complete
  deriving DecidableEq, Repr

namespace Place

/-- The symbols that may come, in the order of the grammar. -/
def expected : Place → List Symbol
  | start => [.token .label, .token .bang]
  | named => [.token .isIn, .token .notIn, .token .equals, .token .differs, .token .comma, .ending]
  | negated => [.token .label]
  | comparing => [.token .label]
  | listing => [.token .opening]
  | opened => [.token .label]
  | listed => [.token .comma, .token .closing]
  | wanting => [.token .label]
  | complete => [.token .comma, .ending]

/-- Going on with a token of a kind. -/
def next? : Place → TokenKind → Option Place
  | start, .label => some named
  | start, .bang => some negated
  | named, .isIn => some listing
  | named, .notIn => some listing
  | named, .equals => some comparing
  | named, .differs => some comparing
  | named, .comma => some start
  | negated, .label => some complete
  | comparing, .label => some complete
  | listing, .opening => some opened
  | opened, .label => some listed
  | listed, .comma => some wanting
  | listed, .closing => some complete
  | wanting, .label => some listed
  | complete, .comma => some start
  | _, _ => none

theorem expected_nodup (p : Place) : p.expected.Nodup := by
  cases p <;> decide

/-- A place goes on with the kinds that it expects. -/
theorem token_mem_expected {p : Place} {kind : TokenKind} : .token kind ∈ p.expected ↔ (p.next? kind).isSome := by
  cases p <;> cases kind <;> decide

/-- The place after a list of tokens, by their kinds. -/
def walk (p : Place) (kinds : List TokenKind) : Option Place := kinds.foldlM next? p

@[simp] theorem walk_nil (p : Place) : p.walk [] = some p := rfl

@[simp] theorem walk_cons (p : Place) (kind : TokenKind) (kinds : List TokenKind) :
    p.walk (kind :: kinds) = (p.next? kind).bind fun q => q.walk kinds := rfl

theorem walk_append (p : Place) (kinds more : List TokenKind) :
    p.walk (kinds ++ more) = (p.walk kinds).bind fun q => q.walk more := List.foldlM_append

end Place

/-! ## States -/

/-- What has been read of a phrase. -/
inductive State
  | start
  | named (name : String)
  | negated
  | comparing (name : String) (side : Side)
  | listing (name : String) (side : Side)
  | opened (name : String) (side : Side)
  | listed (name : String) (side : Side) (first : String) (more : List String)
  | wanting (name : String) (side : Side) (first : String) (more : List String)
  | complete (phrase : Phrase)
  deriving DecidableEq, Repr

/-- Where a token leads: further into the phrase, or past the comma after it. -/
inductive Move
  | within (state : State)
  | past (phrase : Phrase)
  deriving DecidableEq, Repr

namespace State

def place : State → Place
  | start => .start
  | named _ => .named
  | negated => .negated
  | comparing _ _ => .comparing
  | listing _ _ => .listing
  | opened _ _ => .opened
  | listed _ _ _ _ => .listed
  | wanting _ _ _ _ => .wanting
  | complete _ => .complete

/-- The leaves that have been read of the phrase. -/
def terminals : State → List Terminal
  | start => []
  | named name => [.label name]
  | negated => [.mark .bang]
  | comparing name side => [.label name, .mark side.sign]
  | listing name side => [.label name, .mark side.keyword]
  | opened name side => [.label name, .mark side.keyword, .mark .opening]
  | listed name side first more => .label name :: .mark side.keyword :: .mark .opening :: valueTerminals first more
  | wanting name side first more =>
    .label name :: .mark side.keyword :: .mark .opening :: (valueTerminals first more ++ [.mark .comma])
  | complete p => p.terminals

/-- The phrase that has been read, if it may end here. -/
def phrase? : State → Option Phrase
  | named name => some (.present name)
  | complete p => some p
  | _ => none

/-- Going on with a token. -/
def next? (state : State) (t : Terminal) : Option Move :=
  match state, t.kind with
  | start, .label => some (.within (named t.text))
  | start, .bang => some (.within negated)
  | named name, .isIn => some (.within (listing name .inside))
  | named name, .notIn => some (.within (listing name .outside))
  | named name, .equals => some (.within (comparing name .inside))
  | named name, .differs => some (.within (comparing name .outside))
  | named name, .comma => some (.past (.present name))
  | negated, .label => some (.within (complete (.absent t.text)))
  | comparing name side, .label => some (.within (complete (.compared name side t.text)))
  | listing name side, .opening => some (.within (opened name side))
  | opened name side, .label => some (.within (listed name side t.text []))
  | listed name side first more, .comma => some (.within (wanting name side first more))
  | listed name side first more, .closing => some (.within (complete (.listed name side first more)))
  | wanting name side first more, .label => some (.within (listed name side first (more ++ [t.text])))
  | complete p, .comma => some (.past p)
  | _, _ => none

end State

/-- The place where a move ends. -/
def Move.place : Move → Place
  | within state => state.place
  | past _ => .start

namespace State

/-- A state goes on as its place does. -/
theorem place_next? (state : State) (t : Terminal) : (state.next? t).map Move.place = state.place.next? t.kind := by
  obtain ⟨kind, text⟩ := t
  cases state <;> cases kind <;> rfl

/-- A phrase may end where the end is expected. -/
theorem phrase?_isSome (state : State) : state.phrase?.isSome ↔ .ending ∈ state.place.expected := by
  cases state <;> simp [phrase?, place, Place.expected]

/-- What has been read of a phrase that may end is all of it. -/
theorem terminals_of_phrase? {state : State} {p : Phrase} (h : state.phrase? = some p) :
    p.terminals = state.terminals := by
  cases state <;> cases h <;> rfl

/-- A phrase that may end is left at a comma. -/
theorem next?_comma_of_phrase? {state : State} {p : Phrase} (h : state.phrase? = some p) :
    state.next? (.mark .comma) = some (.past p) := by
  cases state <;> cases h <;> rfl

/-- Within a phrase, a step adds its token to what has been read. -/
theorem terminals_of_within {state next : State} {t : Token} (h : state.next? t.terminal = some (.within next)) :
    next.terminals = state.terminals ++ [t.terminal] := by
  obtain ⟨kind, text, offset⟩ := t
  cases state <;> cases kind <;> cases h <;>
    simp [terminals, Phrase.terminals, valueTerminals, Token.terminal, Terminal.label, Terminal.mark, Side.sign,
      Side.keyword]

/-- A phrase is left at a comma, when it may end. -/
theorem phrase?_of_past {state : State} {p : Phrase} {t : Token} (h : state.next? t.terminal = some (.past p)) :
    state.phrase? = some p ∧ t.terminal = .mark .comma := by
  obtain ⟨kind, text, offset⟩ := t
  cases state <;> cases kind <;> cases h <;> exact ⟨rfl, rfl⟩

end State

/-- The phrases of a list of tokens, of which the first has been read as far as the state tells. -/
def run (state : State) : List Token → Except Stop (List Phrase)
  | [] =>
    match state.phrase? with
    | some p => .ok [p]
    | none => .error ⟨[], state.place.expected⟩
  | t :: ts =>
    match state.next? t.terminal with
    | some (.within state) => run state ts
    | some (.past p) => (p :: ·) <$> run .start ts
    | none => .error ⟨t :: ts, state.place.expected⟩

/-! ## What is read is a derivation -/

/-- The phrases that are read have the tokens as leaves, after those that the state has read. -/
theorem terminals_of_run {state : State} {ts : List Token} {ps : List Phrase} (h : run state ts = .ok ps) :
    ps ≠ [] ∧ terminals ps = state.terminals ++ ts.map Token.terminal := by
  induction ts generalizing state ps with
  | nil =>
    unfold run at h
    split at h
    next p hp =>
      cases h
      exact ⟨List.cons_ne_nil _ _, by simp [State.terminals_of_phrase? hp]⟩
    next => cases h
  | cons t ts ih =>
    unfold run at h
    split at h
    next next hn =>
      obtain ⟨hne, hps⟩ := ih h
      exact ⟨hne, by rw [hps, State.terminals_of_within hn]; simp⟩
    next p hn =>
      cases hr : run .start ts with
      | error s => rw [hr] at h; cases h
      | ok qs =>
        rw [hr] at h
        cases h
        obtain ⟨hne, hqs⟩ := ih hr
        obtain ⟨hp, ht⟩ := State.phrase?_of_past hn
        refine ⟨List.cons_ne_nil _ _, ?_⟩
        rw [terminals_cons p hne, hqs, State.terminals_of_phrase? hp, List.map_cons, ht]
        rfl
    next => cases h

/-! ## Every derivation is read -/

section Reading

variable {us ts : List Token}

/-- The values of a list are read one by one. -/
theorem run_values {name first : String} {side : Side} {more before : List String}
    (h : us.map Token.terminal = more.flatMap fun v => [.mark .comma, .label v]) :
    run (.listed name side first before) (us ++ ts) = run (.listed name side first (before ++ more)) ts := by
  induction more generalizing us before with
  | nil =>
    simp only [List.flatMap_nil, List.map_eq_nil_iff] at h
    simp [h]
  | cons v more ih =>
    simp only [List.flatMap_cons, List.cons_append, List.nil_append, List.map_eq_cons_iff] at h
    obtain ⟨t, us, rfl, ht, u, us, rfl, hu, h⟩ := h
    have step : run (.listed name side first before) (t :: u :: (us ++ ts)) =
        run (.listed name side first (before ++ [v])) (us ++ ts) := by
      simp [run, ht, hu, State.next?, Terminal.label, Terminal.mark]
    rw [List.cons_append, List.cons_append, step, ih h, List.append_assoc, List.singleton_append]

/-- The state after a phrase. A bare name may still become more than that. -/
def Phrase.state : Phrase → State
  | present name => .named name
  | p => .complete p

/-- A phrase is read from its leaves. -/
theorem run_phrase {p : Phrase} (h : us.map Token.terminal = p.terminals) :
    run .start (us ++ ts) = run p.state ts := by
  cases p with
  | listed name side first more =>
    simp only [Phrase.terminals, valueTerminals, List.cons_append, List.map_eq_cons_iff, List.map_eq_append_iff,
      List.map_eq_nil_iff] at h
    obtain ⟨t₁, _, rfl, h₁, t₂, _, rfl, h₂, t₃, _, rfl, h₃, t₄, _, rfl, h₄, us, _, rfl, hus, t₅, _, rfl, h₅, rfl⟩ := h
    have opened : run .start (t₁ :: t₂ :: t₃ :: t₄ :: (us ++ (t₅ :: ts))) =
        run (.listed name side first []) (us ++ (t₅ :: ts)) := by
      cases side <;> simp [run, h₁, h₂, h₃, h₄, State.next?, Terminal.label, Terminal.mark, Side.keyword]
    have closed : run (.listed name side first more) (t₅ :: ts) =
        run (.complete (.listed name side first more)) ts := by
      simp [run, h₅, State.next?, Terminal.mark]
    simp only [List.cons_append, List.append_assoc, List.nil_append, opened, run_values hus, closed, Phrase.state]
  | compared name side value =>
    simp only [Phrase.terminals, List.map_eq_cons_iff, List.map_eq_nil_iff] at h
    obtain ⟨t₁, _, rfl, h₁, t₂, _, rfl, h₂, t₃, _, rfl, h₃, rfl⟩ := h
    cases side <;> simp [run, h₁, h₂, h₃, State.next?, Terminal.label, Terminal.mark, Side.sign, Phrase.state]
  | absent name =>
    simp only [Phrase.terminals, List.map_eq_cons_iff, List.map_eq_nil_iff] at h
    obtain ⟨t₁, _, rfl, h₁, t₂, _, rfl, h₂, rfl⟩ := h
    simp [run, h₁, h₂, State.next?, Terminal.label, Terminal.mark, Phrase.state]
  | present name =>
    simp only [Phrase.terminals, List.map_eq_cons_iff, List.map_eq_nil_iff] at h
    obtain ⟨t₁, _, rfl, h₁, rfl⟩ := h
    simp [run, h₁, State.next?, Terminal.label, Phrase.state]

@[simp] theorem Phrase.phrase?_state (p : Phrase) : p.state.phrase? = some p := by
  cases p <;> rfl

/-- A derivation of at least one phrase is read from its leaves. -/
theorem run_terminals {ps : List Phrase} (hne : ps ≠ []) (h : ts.map Token.terminal = terminals ps) :
    run .start ts = .ok ps := by
  induction ps generalizing ts with
  | nil => exact absurd rfl hne
  | cons p ps ih =>
    by_cases hps : ps = []
    · subst hps
      rw [terminals_singleton] at h
      have hread : run .start (ts ++ []) = run p.state [] := run_phrase h
      rw [List.append_nil] at hread
      simp [hread, run]
    · rw [terminals_cons p hps, List.map_eq_append_iff] at h
      obtain ⟨us, _, rfl, hus, hrest⟩ := h
      obtain ⟨t, ts, rfl, ht, hts⟩ := List.map_eq_cons_iff.mp hrest
      simp [run_phrase hus, run, ht, State.next?_comma_of_phrase? p.phrase?_state, ih hps hts, Functor.map, Except.map]

end Reading

/-- The phrases that are read are a derivation of the tokens, and the only one. -/
theorem run_eq_ok_iff {ts : List Token} {ps : List Phrase} :
    run .start ts = .ok ps ↔ ps ≠ [] ∧ ts.map Token.terminal = terminals ps := by
  constructor
  · intro h
    obtain ⟨hne, hps⟩ := terminals_of_run h
    exact ⟨hne, hps.symm⟩
  · rintro ⟨hne, h⟩
    exact run_terminals hne h

/-! ## Where reading stops -/

/-- The symbol at the front of the tokens. -/
def front : List Token → Symbol
  | [] => .ending
  | t :: _ => .token t.kind

theorem front_eq_token_iff {ts : List Token} {kind : TokenKind} :
    front ts = .token kind ↔ ∃ t us, ts = t :: us ∧ t.kind = kind := by
  cases ts <;> simp [front]

theorem front_eq_ending_iff {ts : List Token} : front ts = .ending ↔ ts = [] := by
  cases ts <;> simp [front]

/-- Reading stops at once at a symbol that is not expected. -/
theorem run_of_front_not_mem {state : State} {ts : List Token} (h : front ts ∉ state.place.expected) :
    run state ts = .error ⟨ts, state.place.expected⟩ := by
  cases ts with
  | nil =>
    rw [front, ← state.phrase?_isSome] at h
    rw [run, Option.not_isSome_iff_eq_none.mp h]
  | cons t ts =>
    rw [front, Place.token_mem_expected, ← Token.kind_terminal, ← state.place_next?, Option.isSome_map] at h
    rw [run, Option.not_isSome_iff_eq_none.mp h]

/-- Reading stops after the tokens that the places go on with, and expects what the last place does. -/
theorem walk_of_run_eq_error {state : State} {ts : List Token} {s : Stop} (h : run state ts = .error s) :
    ∃ us place, ts = us ++ s.rest ∧ state.place.walk (us.map Token.kind) = some place ∧
      s.expected = place.expected ∧ front s.rest ∉ place.expected := by
  induction ts generalizing state s with
  | nil =>
    unfold run at h
    split at h
    next => cases h
    next hn =>
      cases h
      refine ⟨[], state.place, rfl, rfl, rfl, ?_⟩
      rw [front, ← state.phrase?_isSome, hn]
      exact Bool.false_ne_true
  | cons t ts ih =>
    have hplace := state.place_next? t.terminal
    rw [Token.kind_terminal] at hplace
    unfold run at h
    split at h
    next next hn =>
      obtain ⟨us, place, rfl, hwalk, hexp, href⟩ := ih h
      rw [hn] at hplace
      exact ⟨t :: us, place, rfl, by rw [List.map_cons, Place.walk_cons, ← hplace]; exact hwalk, hexp, href⟩
    next p hn =>
      cases hr : run .start ts with
      | ok qs => rw [hr] at h; cases h
      | error s' =>
        rw [hr] at h
        cases h
        obtain ⟨us, place, rfl, hwalk, hexp, href⟩ := ih hr
        rw [hn] at hplace
        exact ⟨t :: us, place, rfl, by rw [List.map_cons, Place.walk_cons, ← hplace]; exact hwalk, hexp, href⟩
    next hn =>
      cases h
      refine ⟨[], state.place, rfl, rfl, rfl, ?_⟩
      rw [front, Place.token_mem_expected, ← hplace, hn]
      exact Bool.false_ne_true

/-- Reading stops at a last part of the tokens. -/
theorem length_le_of_run_eq_error {state : State} {ts : List Token} {s : Stop} (h : run state ts = .error s) :
    s.rest.length ≤ ts.length := by
  obtain ⟨us, place, rfl, _⟩ := walk_of_run_eq_error h
  simp

/-- The stop at tokens that a function has changed. -/
def Stop.map (f : Token → Token) (s : Stop) : Stop := { s with rest := s.rest.map f }

/-- A run looks at nothing of a token but its terminal. -/
theorem run_map {f : Token → Token} (hf : ∀ t, (f t).terminal = t.terminal) (state : State) (ts : List Token) :
    run state (ts.map f) = (run state ts).mapError (Stop.map f) := by
  induction ts generalizing state with
  | nil =>
    rw [List.map_nil, run]
    cases state.phrase? <;> rfl
  | cons t ts ih =>
    rw [List.map_cons, run, run, hf]
    cases state.next? t.terminal with
    | none => rfl
    | some move =>
      cases move with
      | within next => exact ih next
      | past p =>
        simp only [ih]
        cases run .start ts <;> rfl

theorem front_map {f : Token → Token} (hf : ∀ t, (f t).terminal = t.terminal) (ts : List Token) :
    front (ts.map f) = front ts := by
  cases ts with
  | nil => rfl
  | cons t ts => rw [List.map_cons, front, front, ← Token.kind_terminal, hf, Token.kind_terminal]

/-- A list of tokens is read exactly if the places go on with it and the last one may end it. -/
theorem run_isOk_iff {state : State} {ts : List Token} :
    (∃ ps, run state ts = .ok ps) ↔
      ∃ place, state.place.walk (ts.map Token.kind) = some place ∧ .ending ∈ place.expected := by
  induction ts generalizing state with
  | nil =>
    simp only [run, List.map_nil, Place.walk_nil, Option.some.injEq, exists_eq_left', ← state.phrase?_isSome]
    cases state.phrase? <;> simp
  | cons t ts ih =>
    have hplace := state.place_next? t.terminal
    rw [Token.kind_terminal] at hplace
    rw [run, List.map_cons, Place.walk_cons, ← hplace]
    cases hn : state.next? t.terminal with
    | none => simp
    | some move =>
      cases move with
      | within next => exact ih
      | past p =>
        have hstart : (∃ ps, (p :: ·) <$> run .start ts = .ok ps) ↔ ∃ ps, run .start ts = .ok ps := by
          cases run .start ts with
          | error s => exact ⟨fun ⟨_, h⟩ => (nomatch h), fun ⟨_, h⟩ => (nomatch h)⟩
          | ok qs => exact ⟨fun _ => ⟨qs, rfl⟩, fun _ => ⟨p :: qs, rfl⟩⟩
        exact hstart.trans ih

end LabelFilter.Grammar
