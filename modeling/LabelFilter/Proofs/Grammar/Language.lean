import LabelFilter.Proofs.Grammar.Simulation
import LabelFilter.Selector.Reading

/-!
# The language of selectors

What `Selector.ofTokens` reads is exactly what the grammar derives, and it reads as its one derivation does
(`ofTokens_reads_derivation`). What it refuses, it refuses at the first symbol that no selector goes on with, and it
names all symbols that some selector goes on with there (`liesAtEdge_of_ofTokens_eq_error`).

The second statement speaks of viable lists of kinds, those that some selector begins with. A list is viable exactly
if the places go on with it (`viable_iff_walk`), since from every place a phrase can be completed.
-/

namespace LabelFilter

namespace Grammar

/-- The phrases are a derivation of the tokens. -/
def Derives (ps : List Phrase) (ts : List Token) : Prop := ts.map Token.terminal = terminals ps

instance (ps : List Phrase) (ts : List Token) : Decidable (Derives ps ts) :=
  inferInstanceAs (Decidable (ts.map Token.terminal = terminals ps))

theorem derives_nil_iff {ps : List Phrase} : Derives ps [] ↔ ps = [] := by
  rw [Derives, List.map_nil, eq_comm, terminals_eq_nil_iff]

/-- Tokens have one derivation at most. -/
theorem Derives.unique {ps qs : List Phrase} {ts : List Token} (hp : Derives ps ts) (hq : Derives qs ts) :
    ps = qs := by
  by_cases hts : ts = []
  · subst hts
    rw [derives_nil_iff.mp hp, derives_nil_iff.mp hq]
  · have nonempty : ∀ {rs : List Phrase}, Derives rs ts → rs ≠ [] := fun h hrs => by
      subst hrs
      exact hts (List.map_eq_nil_iff.mp h)
    exact Except.ok.inj ((run_terminals (nonempty hp) hp).symm.trans (run_terminals (nonempty hq) hq))

/-! ## Tokens of a derivation -/

/-- A token that shows as the terminal, if any does. -/
def Terminal.token (x : Terminal) : Token := ⟨x.kind, some x.text, 0⟩

theorem Terminal.terminal_token_label (text : String) : (label text).token.terminal = label text := rfl

theorem Terminal.terminal_token_mark {kind : TokenKind} (h : kind ≠ .label) : (mark kind).token.terminal = mark kind :=
  if_neg h

/-- The leaves of a phrase are terminals of tokens. -/
theorem Phrase.terminal_token {p : Phrase} {x : Terminal} (hx : x ∈ p.terminals) : x.token.terminal = x := by
  have hshown : (∃ text, x = .label text) ∨ ∃ kind, kind ≠ .label ∧ x = .mark kind := by
    cases p with
    | listed name side first more =>
      simp only [terminals, valueTerminals, List.mem_cons, List.mem_append, List.mem_flatMap, List.not_mem_nil,
        or_false] at hx
      rcases hx with rfl | rfl | rfl | (rfl | ⟨v, _, rfl | rfl⟩) | rfl
      · exact Or.inl ⟨_, rfl⟩
      · exact Or.inr ⟨_, by cases side <;> decide, rfl⟩
      · exact Or.inr ⟨_, by decide, rfl⟩
      · exact Or.inl ⟨_, rfl⟩
      · exact Or.inr ⟨_, by decide, rfl⟩
      · exact Or.inl ⟨_, rfl⟩
      · exact Or.inr ⟨_, by decide, rfl⟩
    | compared name side value =>
      simp only [terminals, List.mem_cons, List.not_mem_nil, or_false] at hx
      rcases hx with rfl | rfl | rfl
      · exact Or.inl ⟨_, rfl⟩
      · exact Or.inr ⟨_, by cases side <;> decide, rfl⟩
      · exact Or.inl ⟨_, rfl⟩
    | absent name =>
      simp only [terminals, List.mem_cons, List.not_mem_nil, or_false] at hx
      rcases hx with rfl | rfl
      · exact Or.inr ⟨_, by decide, rfl⟩
      · exact Or.inl ⟨_, rfl⟩
    | present name => exact Or.inl ⟨name, List.mem_singleton.mp hx⟩
  rcases hshown with ⟨text, rfl⟩ | ⟨kind, hkind, rfl⟩
  · exact Terminal.terminal_token_label text
  · exact Terminal.terminal_token_mark hkind

/-- Every derivation is one of some tokens. -/
theorem exists_derives (ps : List Phrase) : ∃ ts, Derives ps ts := by
  have hshown : ∀ x ∈ terminals ps, (Token.terminal ∘ Terminal.token) x = id x := by
    cases ps with
    | nil => simp
    | cons p ps =>
      intro x hx
      simp only [terminals, List.mem_append, List.mem_flatMap, List.mem_cons] at hx
      rcases hx with hx | ⟨q, _, rfl | hx⟩
      · exact p.terminal_token hx
      · rfl
      · exact q.terminal_token hx
  refine ⟨(terminals ps).map Terminal.token, ?_⟩
  rw [Derives, List.map_map, List.map_congr_left hshown, List.map_id]

/-! ## Viable lists of kinds -/

/-- The kinds are those of a derivation with at least one phrase. -/
def Complete (kinds : List TokenKind) : Prop := ∃ ps, ps ≠ [] ∧ (terminals ps).map Terminal.kind = kinds

/-- A selector with at least one expression begins with the kinds. -/
def Viable (kinds : List TokenKind) : Prop := ∃ whole, Complete whole ∧ kinds <+: whole

theorem Viable.of_prefix {kinds more : List TokenKind} (h : Viable more) (hp : kinds <+: more) : Viable kinds := by
  obtain ⟨whole, hwhole, hmore⟩ := h
  exact ⟨whole, hwhole, hp.trans hmore⟩

/-- Tokens are read exactly if their kinds are complete. -/
theorem complete_iff_run {ts : List Token} : Complete (ts.map Token.kind) ↔ ∃ ps, run .start ts = .ok ps := by
  constructor
  · rintro ⟨ps, hne, hkinds⟩
    obtain ⟨us, hus⟩ := exists_derives ps
    have hsame : us.map Token.kind = ts.map Token.kind := by
      rw [← hkinds, ← hus, List.map_map]
      exact List.map_congr_left fun t _ => t.kind_terminal.symm
    exact run_isOk_iff.mpr (hsame ▸ run_isOk_iff.mp ⟨ps, run_terminals hne hus⟩)
  · rintro ⟨ps, h⟩
    obtain ⟨hne, hps⟩ := run_eq_ok_iff.mp h
    refine ⟨ps, hne, ?_⟩
    rw [← hps, List.map_map]
    exact List.map_congr_left fun t _ => t.kind_terminal

/-- A list of kinds is complete exactly if the places go on with it and the end is expected after it. -/
theorem complete_iff_walk {kinds : List TokenKind} :
    Complete kinds ↔ ∃ place, Place.start.walk kinds = some place ∧ .ending ∈ place.expected := by
  have hkinds : (kinds.map fun kind => (⟨kind, none, 0⟩ : Token)).map Token.kind = kinds := by
    rw [List.map_map]
    exact List.map_id _
  rw [← hkinds, complete_iff_run, run_isOk_iff, hkinds]
  rfl

/-- The kinds that complete the phrase under way. -/
def Place.completion : Place → List TokenKind
  | start => [.label]
  | named => []
  | negated => [.label]
  | comparing => [.label]
  | listing => [.opening, .label, .closing]
  | opened => [.label, .closing]
  | listed => [.closing]
  | wanting => [.label, .closing]
  | complete => []

/-- Every place can be completed. -/
theorem Place.walk_completion (p : Place) : ∃ q, p.walk p.completion = some q ∧ .ending ∈ q.expected := by
  cases p <;> exact ⟨_, rfl, by decide⟩

/-- A list of kinds is viable exactly if the places go on with it. -/
theorem viable_iff_walk {kinds : List TokenKind} : Viable kinds ↔ (Place.start.walk kinds).isSome := by
  constructor
  · rintro ⟨whole, hwhole, more, rfl⟩
    obtain ⟨place, hplace, _⟩ := complete_iff_walk.mp hwhole
    rw [Place.walk_append] at hplace
    obtain ⟨q, hq, _⟩ := Option.bind_eq_some_iff.mp hplace
    rw [hq]
    rfl
  · intro h
    obtain ⟨place, hplace⟩ := Option.isSome_iff_exists.mp h
    obtain ⟨q, hq, hend⟩ := place.walk_completion
    refine ⟨kinds ++ place.completion, complete_iff_walk.mpr ⟨q, ?_, hend⟩, List.prefix_append _ _⟩
    rw [Place.walk_append, hplace]
    exact hq

/-! ## What is read -/

/-- The expressions of a list of tokens are those of its derivation. -/
theorem parse_eq_ok_iff {ts : List Token} {es : List Expression} :
    parse ts = .ok es ↔ ∃ ps, Derives ps ts ∧ ps.map Phrase.expression = es := by
  by_cases hts : ts = []
  · subst hts
    simp [parse, derives_nil_iff]
  · rw [parse_eq_run hts]
    constructor
    · intro h
      cases hr : run .start ts with
      | error s => rw [hr] at h; cases h
      | ok ps =>
        rw [hr] at h
        exact ⟨ps, (run_eq_ok_iff.mp hr).2, Except.ok.inj h⟩
    · rintro ⟨ps, hps, rfl⟩
      have hne : ps ≠ [] := fun h => hts (by subst h; exact List.map_eq_nil_iff.mp hps)
      rw [run_terminals hne hps]
      rfl

/-- Tokens that are refused stop the run. -/
theorem run_of_parse_eq_error {ts : List Token} {stop : Stop} (h : parse ts = .error stop) :
    run .start ts = .error stop := by
  by_cases hts : ts = []
  · subst hts
    cases h
  · rw [parse_eq_run hts] at h
    cases hr : run .start ts with
    | error s => rw [hr] at h; exact congrArg _ (Except.error.inj h)
    | ok ps => rw [hr] at h; cases h

/-- The kinds derive from the grammar. -/
def Derivable (kinds : List TokenKind) : Prop := ∃ ps, (terminals ps).map Terminal.kind = kinds

theorem derivable_iff {kinds : List TokenKind} : Derivable kinds ↔ kinds = [] ∨ Complete kinds := by
  constructor
  · rintro ⟨ps, rfl⟩
    by_cases hps : ps = []
    · exact Or.inl (by rw [hps]; rfl)
    · exact Or.inr ⟨ps, hps, rfl⟩
  · rintro (rfl | ⟨ps, _, hps⟩)
    · exact ⟨[], rfl⟩
    · exact ⟨ps, hps⟩

/-- Tokens have a derivation exactly if their kinds derive from the grammar. -/
theorem exists_derives_iff {ts : List Token} : (∃ ps, Derives ps ts) ↔ Derivable (ts.map Token.kind) := by
  rw [derivable_iff, complete_iff_run, List.map_eq_nil_iff]
  constructor
  · rintro ⟨ps, hps⟩
    by_cases hne : ps = []
    · exact Or.inl (by subst hne; exact List.map_eq_nil_iff.mp hps)
    · exact Or.inr ⟨ps, run_terminals hne hps⟩
  · rintro (rfl | ⟨ps, hps⟩)
    · exact ⟨[], rfl⟩
    · exact ⟨ps, (run_eq_ok_iff.mp hps).2⟩

end Grammar

open Grammar

namespace Selector

/-- The position in bytes of the first of the tokens, or of the end. -/
def frontOffset (length : Nat) : List Token → Nat
  | [] => length
  | t :: _ => t.offset

theorem ofTokens_of_parse_ok {ts : List Token} {es : List Expression} (length : Nat) (h : parse ts = .ok es) :
    ofTokens ts length = .ok ⟨es⟩ := by
  simp only [ofTokens, h]

/-- A stop is reported with what stands there. -/
theorem ofTokens_of_parse_error {ts : List Token} {stop : Stop} (length : Nat) (h : parse ts = .error stop) :
    ofTokens ts length =
      .error ⟨frontOffset length stop.rest, ts.length - stop.rest.length, front stop.rest, stop.expected⟩ := by
  simp only [ofTokens, h]
  cases stop.rest <;> rfl

/-- A stop of the run is reported, so faults can be computed. -/
theorem ofTokens_of_run_eq_error {ts : List Token} {stop : Stop} (length : Nat) (hts : ts ≠ [])
    (h : run .start ts = .error stop) :
    ofTokens ts length =
      .error ⟨frontOffset length stop.rest, ts.length - stop.rest.length, front stop.rest, stop.expected⟩ := by
  refine ofTokens_of_parse_error length ?_
  rw [parse_eq_run hts, h]
  rfl

theorem ofTokens_eq_ok_iff {ts : List Token} {length : Nat} {s : Selector} :
    ofTokens ts length = .ok s ↔ ∃ ps, Derives ps ts ∧ s = ⟨ps.map Phrase.expression⟩ := by
  have hparse : ofTokens ts length = .ok s ↔ parse ts = .ok s.expressions := by
    cases h : parse ts with
    | ok es =>
      rw [ofTokens_of_parse_ok length h]
      exact ⟨fun h => by rw [← Except.ok.inj h], fun h => by rw [Except.ok.inj h]⟩
    | error stop =>
      rw [ofTokens_of_parse_error length h]
      exact ⟨fun h => (nomatch h), fun h => (nomatch h)⟩
  rw [hparse, parse_eq_ok_iff]
  exact exists_congr fun ps => and_congr_right fun _ => ⟨fun h => by rw [h], fun h => by rw [h]⟩

/-- **Reading is deriving.** A list of tokens is read exactly if its kinds derive from the grammar. The selector is
what its derivation reads as, and there is only one derivation. Positions and the length of the text do not count. -/
theorem ofTokens_reads_derivation (ts : List Token) (length : Nat) :
    ((∃ s, ofTokens ts length = .ok s) ↔ Derivable (ts.map Token.kind)) ∧
    (∀ s, ofTokens ts length = .ok s ↔ ∃ ps, Derives ps ts ∧ s = ⟨ps.map Phrase.expression⟩) ∧
    (∀ ps qs, Derives ps ts → Derives qs ts → ps = qs) ∧
    (∀ us n, us.map Token.terminal = ts.map Token.terminal →
      (ofTokens us n).toOption = (ofTokens ts length).toOption) := by
  refine ⟨?_, fun s => ofTokens_eq_ok_iff, fun ps qs => Derives.unique, fun us n hsame => ?_⟩
  · rw [← exists_derives_iff]
    constructor
    · rintro ⟨s, hs⟩
      obtain ⟨ps, hps, _⟩ := ofTokens_eq_ok_iff.mp hs
      exact ⟨ps, hps⟩
    · rintro ⟨ps, hps⟩
      exact ⟨_, ofTokens_eq_ok_iff.mpr ⟨ps, hps, rfl⟩⟩
  · have hiff : ∀ s, ofTokens us n = .ok s ↔ ofTokens ts length = .ok s := fun s => by
      simp only [ofTokens_eq_ok_iff, Derives, hsame]
    cases ht : ofTokens ts length with
    | ok s => rw [(hiff s).mpr ht]
    | error e =>
      cases hu : ofTokens us n with
      | ok s => cases ht.symm.trans ((hiff s).mp hu)
      | error e' => rfl

/-- The tokens of `a in (b, ), !c` with a second value that has no text, and a keyword that has one. -/
def unlabelled : List Token :=
  [⟨.label, some "a", 0⟩, ⟨.isIn, some "in", 2⟩, ⟨.opening, none, 5⟩, ⟨.label, some "b", 6⟩, ⟨.comma, none, 7⟩,
    ⟨.label, none, 9⟩, ⟨.closing, none, 9⟩, ⟨.comma, none, 10⟩, ⟨.bang, none, 12⟩, ⟨.label, some "c", 13⟩]

/-- They read as the derivation that the run finds, also without their positions and the text of the keyword. -/
theorem ofTokens_unlabelled :
    ofTokens unlabelled 14 = .ok ⟨[⟨"a", .oneOf, ["b", ""]⟩, .absent "c"]⟩ ∧
    (run .start unlabelled).toOption.getD [] = [.listed "a" .inside "b" [""], .absent "c"] ∧
    (ofTokens (unlabelled.map fun t => t.terminal.token) 0).toOption = (ofTokens unlabelled 14).toOption := by
  have hderives : Derives [.listed "a" .inside "b" [""], .absent "c"] unlabelled := by decide
  have hrun : Derives ((run .start unlabelled).toOption.getD []) unlabelled := by decide
  obtain ⟨_, hread, hunique, hsame⟩ := ofTokens_reads_derivation unlabelled 14
  exact ⟨(hread _).mpr ⟨_, hderives, rfl⟩, hunique _ _ hrun hderives, hsame _ _ (by decide)⟩

/-! ## What is refused -/

/-- A fault lies at the end of the longest viable start of the tokens, and tells how that start can go on. -/
structure LiesAtEdge (ts : List Token) (length : Nat) (e : UnexpectedSymbol) : Prop where
  /-- The tokens before the fault are viable. -/
  viable : Viable ((ts.take e.position).map Token.kind)
  position_le : e.position ≤ ts.length
  /-- No longer start of the tokens is viable. -/
  longest : ∀ n ≤ ts.length, Viable ((ts.take n).map Token.kind) → n ≤ e.position
  /-- What is found is the token there, or the end after all tokens. -/
  found : e.found = (ts[e.position]?.map fun t => Symbol.token t.kind).getD .ending
  offset : e.offset = (ts[e.position]?.map Token.offset).getD length
  nodup : e.expected.Nodup
  /-- A kind is expected if the viable start is viable with it. -/
  token_mem : ∀ kind, .token kind ∈ e.expected ↔ Viable ((ts.take e.position).map Token.kind ++ [kind])
  /-- The end is expected if the viable start is a selector with at least one expression. -/
  ending_mem : .ending ∈ e.expected ↔ Complete ((ts.take e.position).map Token.kind)

/-- A refusal splits the tokens into those that the places go on with, and those from an unexpected symbol on. -/
theorem split_of_ofTokens_eq_error {ts : List Token} {length : Nat} {e : UnexpectedSymbol}
    (h : ofTokens ts length = .error e) :
    ∃ us rest place, ts = us ++ rest ∧ Place.start.walk (us.map Token.kind) = some place ∧
      front rest ∉ place.expected ∧ e = ⟨frontOffset length rest, us.length, front rest, place.expected⟩ := by
  cases hparse : parse ts with
  | ok es => cases (ofTokens_of_parse_ok length hparse).symm.trans h
  | error stop =>
    obtain ⟨us, place, hts, hwalk, hexpected, hfront⟩ := walk_of_run_eq_error (run_of_parse_eq_error hparse)
    refine ⟨us, stop.rest, place, hts, hwalk, hfront, ?_⟩
    have hposition : ts.length - stop.rest.length = us.length := by
      rw [congrArg List.length hts, List.length_append, Nat.add_sub_cancel]
    rw [← hexpected, ← hposition]
    exact Except.error.inj (h.symm.trans (ofTokens_of_parse_error length hparse))

/-- A start of the tokens that reaches beyond an unexpected symbol is not viable. -/
theorem not_viable_of_front_not_mem {us rest : List Token} {place : Place} {n : Nat}
    (hwalk : Place.start.walk (us.map Token.kind) = some place) (hfront : front rest ∉ place.expected)
    (hlt : us.length < n) (hle : n ≤ (us ++ rest).length) : ¬Viable (((us ++ rest).take n).map Token.kind) := by
  cases rest with
  | nil =>
    rw [List.append_nil] at hle
    omega
  | cons t rest =>
    intro hviable
    have hprefix : us.map Token.kind ++ [t.kind] <+: ((us ++ t :: rest).take n).map Token.kind := by
      obtain ⟨m, rfl⟩ : ∃ m, n = us.length + (m + 1) := ⟨n - us.length - 1, by omega⟩
      rw [List.take_length_add_append, List.take_succ_cons, List.map_append, List.map_cons]
      exact ⟨(rest.take m).map Token.kind, by simp⟩
    have hnext := viable_iff_walk.mp (hviable.of_prefix hprefix)
    rw [Place.walk_append, hwalk, Option.bind_some, Place.walk_cons] at hnext
    apply hfront
    rw [front, Place.token_mem_expected]
    cases hn : place.next? t.kind with
    | none => rw [hn] at hnext; exact hnext
    | some q => rfl

/-- **A refusal lies where the tokens leave the grammar**, and lists the symbols that stay in it. -/
theorem liesAtEdge_of_ofTokens_eq_error {ts : List Token} {length : Nat} {e : UnexpectedSymbol}
    (h : ofTokens ts length = .error e) : LiesAtEdge ts length e := by
  obtain ⟨us, rest, place, rfl, hwalk, hfront, rfl⟩ := split_of_ofTokens_eq_error h
  have htake : (us ++ rest).take us.length = us := List.take_left
  have hget : (us ++ rest)[us.length]? = rest.head? := by
    rw [List.getElem?_append_right (Nat.le_refl _), Nat.sub_self, List.head?_eq_getElem?]
  constructor
  case viable =>
    rw [htake, viable_iff_walk, hwalk]
    rfl
  case position_le => simp
  case longest =>
    intro n hle hviable
    exact Nat.not_lt.mp fun hlt => not_viable_of_front_not_mem hwalk hfront hlt hle hviable
  case found =>
    rw [hget]
    cases rest <;> rfl
  case offset =>
    rw [hget]
    cases rest <;> rfl
  case nodup => exact place.expected_nodup
  case token_mem =>
    intro kind
    rw [htake, viable_iff_walk, Place.walk_append, hwalk, Place.token_mem_expected]
    cases hn : place.next? kind <;> simp [hn]
  case ending_mem =>
    rw [htake, complete_iff_walk]
    constructor
    · exact fun hend => ⟨place, hwalk, hend⟩
    · rintro ⟨q, hq, hend⟩
      cases hwalk.symm.trans hq
      exact hend

/-- The tokens of `a in (b, ) c`. The list is cut short before its second value. -/
def cutShort : List Token :=
  [⟨.label, some "a", 0⟩, ⟨.isIn, none, 2⟩, ⟨.opening, none, 5⟩, ⟨.label, some "b", 6⟩, ⟨.comma, none, 7⟩,
    ⟨.closing, none, 9⟩, ⟨.label, some "c", 11⟩]

theorem liesAtEdge_cutShort :
    ofTokens cutShort 12 = .error ⟨9, 5, .token .closing, [.token .label]⟩ ∧
      LiesAtEdge cutShort 12 ⟨9, 5, .token .closing, [.token .label]⟩ := by
  have hrun : run .start cutShort = .error ⟨cutShort.drop 5, [.token .label]⟩ := rfl
  have h : ofTokens cutShort 12 = .error ⟨9, 5, .token .closing, [.token .label]⟩ :=
    ofTokens_of_run_eq_error 12 (List.cons_ne_nil _ _) hrun
  exact ⟨h, liesAtEdge_of_ofTokens_eq_error h⟩

end Selector

end LabelFilter
