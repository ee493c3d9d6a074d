import LabelFilter.Proofs.Store
import LabelFilter.Proofs.View.Visiting
import LabelFilter.Session

/-!
# Runs of sessions

A step does one of four things: it is refused, it makes a cell, it binds a name to what there is, or it grows a cell
(`Session.effect`). Whatever names refer to has been made (`Session.Closed`), so a new cell is no part of what there is
already, and the only step that changes what a reference sees is one that grows a cell of it. Hence, at every point of
every run (`Session.faithful_of_run`):

- a combined view answers as its sources do at that point, one after the other;
- what a reference sees changes only in the segments that come from cells that grow;
- a copied, frozen or merged selector stays what it was when it was made, unless it is built on itself.
-/

namespace LabelFilter

/-- A frozen selector is the selector, in whatever form it is kept. -/
theorem Form.toSelector_freeze (form : Form) (p : Selector) : (form.freeze p).toSelector = p :=
  View.toSelector_eq (by cases form <;> simp [freeze])

namespace Session

variable {s : Session} {step : Step} {index : Nat} {name : String}

/-! ## Steps -/

/-- The session after a step. A step that cannot be taken changes nothing. -/
def after (s : Session) (step : Step) : Session := s.run [step]

theorem after_of_ok {s' : Session} {defect? : Option Defect} (h : s.perform step = .ok (s', defect?)) :
    s.after step = s' := by
  simp only [after, run, h]

theorem after_of_error {e : SessionFault} (h : s.perform step = .error e) : s.after step = s := by
  simp only [after, run, h]

theorem run_cons (s : Session) (step : Step) (steps : List Step) :
    s.run (step :: steps) = (s.after step).run steps := by
  cases h : s.perform step with
  | ok result => simp only [after, run, h]
  | error e => simp only [after, run, h]

/-- The expressions that a step adds to a cell: those of the chain that the cell grows by, up to the first one with a
defect. -/
def addedBy (s : Session) (index : Nat) : Step → List Expression
  | .grow name chain =>
    match s.cellOf name with
    | .ok i => if i = index then chain.takeWhile fun e => e.defect?.isNone else []
    | .error _ => []
  | _ => []

/-- The expressions that a run of steps adds to a cell. -/
def added (s : Session) (index : Nat) : List Step → List Expression
  | [] => []
  | step :: steps => s.addedBy index step ++ (s.after step).added index steps

/-! ## Names -/

/-- What the names stand for has been made. -/
def Closed (s : Session) : Prop := ∀ entry ∈ s.slots, entry.2.live.Within s.store.cells.length

theorem closed_empty : empty.Closed := nofun

/-- No name but this one stands for the cell. -/
def OwnedAs (s : Session) (index : Nat) (name : String) : Prop :=
  ∀ entry ∈ s.slots, entry.2 = .owned index → entry.1 = name

theorem mem_slots_of_slot {slot : Slot} (h : s.slot name = .ok slot) : (name, slot) ∈ s.slots := by
  unfold Session.slot at h
  split at h
  next found hlookup =>
    cases h
    obtain ⟨before, after, hslots, _⟩ := List.lookup_eq_some_iff.mp hlookup
    rw [hslots]
    exact List.mem_append_right before List.mem_cons_self
  next => cases h

theorem slot_of_cellOf (h : s.cellOf name = .ok index) : s.slot name = .ok (.owned index) := by
  unfold cellOf at h
  split at h
  next hslot =>
    cases h
    exact hslot
  next => cases h
  next => cases h

theorem mem_slots_of_slotsOf {names : List String} {slots : List Slot} (h : s.slotsOf names = .ok slots) :
    ∀ slot ∈ slots, ∃ name, (name, slot) ∈ s.slots := by
  induction names generalizing slots with
  | nil =>
    cases h
    exact fun slot hslot => (nomatch hslot)
  | cons n ns ih =>
    rw [slotsOf, List.mapM_cons] at h
    cases hn : s.slot n with
    | error e => rw [hn] at h; cases h
    | ok first =>
      cases hns : s.slotsOf ns with
      | error e =>
        rw [slotsOf] at hns
        rw [hn, hns] at h
        cases h
      | ok rest =>
        have hrest := ih hns
        rw [slotsOf] at hns
        rw [hn, hns] at h
        cases h
        exact List.forall_mem_cons.mpr ⟨⟨n, mem_slots_of_slot hn⟩, hrest⟩

theorem slot_bind (s : Session) (name : String) (slot : Slot) : (s.bind name slot).slot name = .ok slot := by
  simp [Session.slot, bind]

theorem own_store (s : Session) (name : String) (holder : Holder) (content : Selector) :
    (s.own name holder content).store = (s.store.make ⟨holder, content⟩).1 :=
  rfl

theorem slot_own (s : Session) (name : String) (holder : Holder) (content : Selector) :
    (s.own name holder content).slot name = .ok (.owned s.store.cells.length) :=
  slot_bind _ name _

theorem Closed.slot {slot : Slot} (h : s.Closed) (hslot : s.slot name = .ok slot) :
    slot.live.Within s.store.cells.length :=
  h _ (mem_slots_of_slot hslot)

theorem Closed.cellOf_lt (h : s.Closed) (hcell : s.cellOf name = .ok index) : index < s.store.cells.length :=
  h.slot (slot_of_cellOf hcell) index (by simp [Slot.live])

/-- What is combined from names that stand for something has been made. -/
theorem Closed.within_combined {names : List String} {slots : List Slot} (h : s.Closed)
    (hslots : s.slotsOf names = .ok slots) : (Slot.view (slots.map Slot.live)).live.Within s.store.cells.length := by
  intro index hindex
  simp only [Slot.live, Live.segments_combined, List.flatMap_map, List.mem_flatMap] at hindex
  obtain ⟨slot, hslot, hindex⟩ := hindex
  obtain ⟨name, hname⟩ := mem_slots_of_slotsOf hslots slot hslot
  exact h _ hname index hindex

/-! ## What a step does -/

theorem after_copy {source : String} {v : View} (h : s.view source = .ok v) (name : String) (holder : Holder) :
    s.after (.copy name source holder) = s.own name holder v.toSelector := by
  have hstep : s.perform (.copy name source holder) = .ok (s.own name holder v.toSelector, none) := by
    rw [perform, h]; rfl
  exact after_of_ok hstep

theorem after_freeze {source : String} {v : View} (h : s.view source = .ok v) (name : String) (form : Form) :
    s.after (.freeze name source form) = s.bind name (.frozen (form.freeze v.toSelector)) := by
  have hstep : s.perform (.freeze name source form) =
      .ok (s.bind name (.frozen (form.freeze v.toSelector)), none) := by
    rw [perform, h]; rfl
  exact after_of_ok hstep

theorem after_combine {sources : List String} {slots : List Slot} (h : s.slotsOf sources = .ok slots) (name : String) :
    s.after (.combine name sources) = s.bind name (.view (slots.map Slot.live)) := by
  have hstep : s.perform (.combine name sources) = .ok (s.bind name (.view (slots.map Slot.live)), none) := by
    rw [perform, h]; rfl
  exact after_of_ok hstep

theorem after_merge {sources : List String} {slots : List Slot} (h : s.slotsOf sources = .ok slots) (name : String) :
    s.after (.merge name sources) =
      s.own name .cell (View.merge (slots.map fun slot => slot.live.observe s.store)) := by
  have hstep : s.perform (.merge name sources) =
      .ok (s.own name .cell (View.merge (slots.map fun slot => slot.live.observe s.store)), none) := by
    rw [perform, h]; rfl
  exact after_of_ok hstep

theorem after_grow (h : s.cellOf name = .ok index) (chain : List Expression) :
    s.after (.grow name chain) = ⟨(s.store.grow index chain).1, s.slots⟩ := by
  have hstep : s.perform (.grow name chain) =
      .ok (⟨(s.store.grow index chain).1, s.slots⟩, (s.store.grow index chain).2) := by
    rw [perform, h]; rfl
  exact after_of_ok hstep

/-- What a step does to a session. -/
inductive Effect (s : Session) : Step → Session → Prop
  | refused {step : Step} (adds : ∀ index, s.addedBy index step = []) : Effect s step s
  | made {step : Step} (adds : ∀ index, s.addedBy index step = []) (name : String) (holder : Holder)
    (content : Selector) : Effect s step (s.own name holder content)
  | bound {step : Step} (adds : ∀ index, s.addedBy index step = []) (name : String) (slot : Slot)
    (unowned : ∀ index, slot ≠ .owned index) (within : s.Closed → slot.live.Within s.store.cells.length) :
    Effect s step (s.bind name slot)
  | grown {name : String} {index : Nat} (target : s.cellOf name = .ok index) (chain : List Expression) :
    Effect s (.grow name chain) ⟨(s.store.grow index chain).1, s.slots⟩

theorem effect_of_error {e : SessionFault} (h : s.perform step = .error e) : s.Effect step (s.after step) := by
  rw [after_of_error h]
  refine .refused fun index => ?_
  cases step with
  | grow name chain =>
    cases hcell : s.cellOf name with
    | error _ => rw [addedBy, hcell]
    | ok i =>
      rw [perform, hcell] at h
      cases h
  | _ => rfl

theorem effect (s : Session) (step : Step) : s.Effect step (s.after step) := by
  cases step with
  | own name holder content => exact .made (fun _ => rfl) name holder content
  | copy name source holder =>
    cases h : s.view source with
    | error e => exact effect_of_error (e := e) (by rw [perform, h]; rfl)
    | ok v =>
      rw [after_copy h]
      exact .made (fun _ => rfl) name holder v.toSelector
  | freeze name source form =>
    cases h : s.view source with
    | error e => exact effect_of_error (e := e) (by rw [perform, h]; rfl)
    | ok v =>
      rw [after_freeze h]
      exact .bound (fun _ => rfl) name _ (fun _ => nofun) fun _ _ hindex => by simp [Slot.live] at hindex
  | grow name chain =>
    cases h : s.cellOf name with
    | error e => exact effect_of_error (e := e) (by rw [perform, h]; rfl)
    | ok index =>
      rw [after_grow h]
      exact .grown h chain
  | combine name sources =>
    cases h : s.slotsOf sources with
    | error e => exact effect_of_error (e := e) (by rw [perform, h]; rfl)
    | ok slots =>
      rw [after_combine h]
      exact .bound (fun _ => rfl) name _ (fun _ => nofun) fun hs => hs.within_combined h
  | merge name sources =>
    cases h : s.slotsOf sources with
    | error e => exact effect_of_error (e := e) (by rw [perform, h]; rfl)
    | ok slots =>
      rw [after_merge h]
      exact .made (fun _ => rfl) name _ _

/-! ## Cells through a step -/

theorem Closed.bind {slot : Slot} (h : s.Closed) (name : String) (hslot : slot.live.Within s.store.cells.length) :
    (s.bind name slot).Closed :=
  List.forall_mem_cons.mpr ⟨hslot, h⟩

theorem Closed.own (h : s.Closed) (name : String) (holder : Holder) (content : Selector) :
    (s.own name holder content).Closed := by
  refine List.forall_mem_cons.mpr ⟨?_, fun entry hentry => (h entry hentry).mono ?_⟩
  · intro index hindex
    rw [Slot.live, Live.segments_cell, List.mem_singleton, Segment.cell.injEq] at hindex
    rw [own_store, Store.length_make]
    omega
  · rw [own_store, Store.length_make]
    exact Nat.le_succ _

namespace Effect

variable {s' : Session}

/-- Cells are never lost. -/
theorem length_le (h : s.Effect step s') : s.store.cells.length ≤ s'.store.cells.length := by
  cases h with
  | refused _ => exact Nat.le_refl _
  | made _ name holder content =>
    rw [own_store, Store.length_make]
    exact Nat.le_succ _
  | bound _ name slot _ _ => exact Nat.le_refl _
  | grown target chain => exact Nat.le_of_eq (Store.length_grow _ _ _).symm

theorem closed (h : s.Effect step s') (hs : s.Closed) : s'.Closed := by
  cases h with
  | refused _ => exact hs
  | made _ name holder content => exact hs.own name holder content
  | bound _ name slot _ within => exact hs.bind name (within hs)
  | grown target chain => exact fun entry hentry => (hs entry hentry).mono (Nat.le_of_eq (Store.length_grow _ _ _).symm)

/-- A step adds at the end of a cell that there is. -/
theorem content (h : s.Effect step s') (hs : s.Closed) (hindex : index < s.store.cells.length) :
    s'.store.content index = s.store.content index ++ s.addedBy index step := by
  cases h with
  | refused adds => rw [adds, List.append_nil]
  | made adds name holder content =>
    rw [adds, List.append_nil, own_store]
    exact Store.content_make hindex _
  | bound adds name slot _ _ =>
    rw [adds, List.append_nil]
    rfl
  | grown target chain =>
    rw [addedBy, target]
    exact Store.content_grow (hs.cellOf_lt target) chain index

/-- No other name comes to stand for a cell. -/
theorem ownedAs (h : s.Effect step s') (hs : s.OwnedAs index name) (hindex : index < s.store.cells.length) :
    s'.OwnedAs index name := by
  cases h with
  | refused _ => exact hs
  | made _ other holder content =>
    refine List.forall_mem_cons.mpr ⟨fun howned => ?_, hs⟩
    have hnew : s.store.cells.length = index := Slot.owned.inj howned
    omega
  | bound _ other slot unowned _ => exact List.forall_mem_cons.mpr ⟨fun howned => absurd howned (unowned index), hs⟩
  | grown target chain => exact hs

end Effect

/-- Only a step that grows a cell under its name adds to it. -/
theorem OwnedAs.addedBy_eq_nil (h : s.OwnedAs index name)
    (hstep : s.cellOf name = .ok index → ∀ chain, step ≠ .grow name chain) : s.addedBy index step = [] := by
  cases step with
  | grow other chain =>
    cases hcell : s.cellOf other with
    | error e => rw [addedBy, hcell]
    | ok i =>
      rw [addedBy, hcell]
      -- a name that stands for the cell is the only one that does
      refine if_neg fun hi => ?_
      subst hi
      have hother : other = name := h _ (mem_slots_of_slot (slot_of_cellOf hcell)) rfl
      subst hother
      exact hstep hcell chain rfl
  | _ => rfl

/-! ## Cells through a run -/

theorem Closed.run (h : s.Closed) (steps : List Step) : (s.run steps).Closed := by
  induction steps generalizing s with
  | nil => exact h
  | cons step steps ih =>
    rw [run_cons]
    exact ih ((s.effect step).closed h)

/-- A run adds at the end of a cell that there is. -/
theorem Closed.content_run (h : s.Closed) (hindex : index < s.store.cells.length) (later : List Step) :
    (s.run later).store.content index = s.store.content index ++ s.added index later := by
  induction later generalizing s with
  | nil => exact (List.append_nil _).symm
  | cons step steps ih =>
    have hstep := s.effect step
    rw [run_cons, ih (hstep.closed h) (Nat.lt_of_lt_of_le hindex hstep.length_le), hstep.content h hindex,
      List.append_assoc, added]

/-- A step of the run grows the cell under this name. -/
def BuiltOn (s : Session) (name : String) (index : Nat) : List Step → Prop
  | [] => False
  | step :: steps =>
    (s.cellOf name = .ok index ∧ ∃ chain, step = .grow name chain) ∨ (s.after step).BuiltOn name index steps

theorem OwnedAs.added_eq_nil (h : s.OwnedAs index name) (hindex : index < s.store.cells.length) {later : List Step}
    (hlater : ¬ s.BuiltOn name index later) : s.added index later = [] := by
  induction later generalizing s with
  | nil => rfl
  | cons step steps ih =>
    obtain ⟨hstep, hsteps⟩ := not_or.mp hlater
    have hadded : s.addedBy index step = [] :=
      h.addedBy_eq_nil fun hcell chain hgrow => hstep ⟨hcell, chain, hgrow⟩
    have heffect := s.effect step
    rw [added, hadded, ih (heffect.ownedAs h hindex) (Nat.lt_of_lt_of_le hindex heffect.length_le) hsteps]
    rfl

/-! ## References -/

/-- What a run of steps adds to a segment. -/
def gained (s : Session) (later : List Step) : Segment → List Expression
  | .cell index => s.added index later
  | .settled _ => []

/-- What a reference sees grows where its segments do. -/
theorem Closed.expressions_run (h : s.Closed) {l : Live} (hl : l.Within s.store.cells.length) (later : List Step) :
    (l.observe (s.run later).store).expressions =
      l.segments.flatMap fun g => g.content s.store ++ s.gained later g := by
  rw [Live.expressions_observe, List.flatMap_def, List.flatMap_def]
  refine congrArg List.flatten (List.map_congr_left fun g hg => ?_)
  cases g with
  | cell index => exact h.content_run (hl index hg) later
  | settled es => exact (List.append_nil es).symm

/-- The selector that a step makes for a name: the one given, or what the sources have at that point. -/
inductive Makes (s : Session) : Step → String → Selector → Prop
  | own (name : String) (holder : Holder) (content : Selector) : Makes s (.own name holder content) name content
  | copy {source : String} {v : View} (found : s.view source = .ok v) (name : String) (holder : Holder) :
    Makes s (.copy name source holder) name v.toSelector
  | freeze {source : String} {v : View} (found : s.view source = .ok v) (name : String) (form : Form) :
    Makes s (.freeze name source form) name v.toSelector
  | merge {sources : List String} {slots : List Slot} (found : s.slotsOf sources = .ok slots) (name : String) :
    Makes s (.merge name sources) name (View.merge (slots.map fun slot => slot.live.observe s.store))

theorem Makes.slot {p : Selector} (h : s.Makes step name p) :
    (∃ holder, s.after step = s.own name holder p) ∨
      ∃ v, s.after step = s.bind name (.frozen v) ∧ v.toSelector = p := by
  cases h with
  | own _ holder content => exact .inl ⟨holder, rfl⟩
  | copy found _ holder => exact .inl ⟨holder, after_copy found name holder⟩
  | freeze found _ form => exact .inr ⟨_, after_freeze found name form, form.toSelector_freeze _⟩
  | merge found _ => exact .inl ⟨.cell, after_merge found name⟩

/-- What names refer to is kept by every later run. -/
structure Faithful (s : Session) : Prop where
  /-- At every later point a combined view answers as the list of what its sources have there, in order. -/
  combined : ∀ {sources : List String} {slots : List Slot}, s.slotsOf sources = .ok slots → ∀ name,
    ∃ slot, (s.after (.combine name sources)).slot name = .ok slot ∧
      ∀ later, let store := ((s.after (.combine name sources)).run later).store
        (slot.live.observe store).SameAnswers
          (.list (slots.flatMap fun source => (source.live.observe store).toSelector.expressions))
  /-- What a name refers to changes only in the segments from cells that grow, and these grow at their ends. -/
  segments : ∀ {name : String} {slot : Slot}, s.slot name = .ok slot → ∀ later,
    (slot.live.observe (s.run later).store).toSelector.expressions =
      slot.live.segments.flatMap fun g => g.content s.store ++ s.gained later g
  /-- A selector that a step makes stays as it was made, up to what is built on it under its own name. -/
  snapshots : ∀ {step : Step} {name : String} {p : Selector}, s.Makes step name p →
    ∃ slot, (s.after step).slot name = .ok slot ∧
      ∀ later, (∀ index, slot = .owned index → ¬ (s.after step).BuiltOn name index later) →
        (slot.live.observe ((s.after step).run later).store).toSelector = p

/-- A combined view is of its sources, not of what they had when it was made. -/
theorem observe_combined (sources : List Slot) (store : Store) :
    ((Slot.view (sources.map Slot.live)).live.observe store).SameAnswers
      (.list (sources.flatMap fun source => (source.live.observe store).toSelector.expressions)) := by
  refine .of_expressions ?_
  simp only [Slot.live, Live.expressions_observe_combined, List.flatMap_map, View.expressions_list,
    View.toSelector_expressions]

/-- A new cell is owned under one name only. -/
theorem Closed.ownedAs_own (h : s.Closed) (name : String) (holder : Holder) (content : Selector) :
    (s.own name holder content).OwnedAs s.store.cells.length name := by
  refine List.forall_mem_cons.mpr ⟨fun _ => rfl, fun entry hentry howned => ?_⟩
  have hlt := h entry hentry s.store.cells.length (by simp [howned, Slot.live])
  omega

/-- What is put in a new cell stays there, up to what is built on it. -/
theorem Closed.observe_own (h : s.Closed) {holder : Holder} {content : Selector} {later : List Step}
    (hlater : ¬ (s.own name holder content).BuiltOn name s.store.cells.length later) :
    ((Slot.owned s.store.cells.length).live.observe ((s.own name holder content).run later).store).toSelector =
      content := by
  have hindex : s.store.cells.length < (s.own name holder content).store.cells.length := by
    rw [own_store, Store.length_make]
    omega
  have hcontent : ((s.own name holder content).run later).store.content s.store.cells.length = content.expressions := by
    rw [(h.own name holder content).content_run hindex, (h.ownedAs_own name holder content).added_eq_nil hindex hlater,
      List.append_nil, own_store, Store.content_make_self]
  exact View.toSelector_eq hcontent

theorem Closed.faithful (h : s.Closed) : s.Faithful where
  combined hslots name := by
    refine ⟨_, ?_, fun later => observe_combined _ _⟩
    rw [after_combine hslots, slot_bind]
  segments hslot later := by
    rw [View.toSelector_expressions, h.expressions_run (h.slot hslot)]
  snapshots := by
    intro step name p hmakes
    obtain ⟨holder, hafter⟩ | ⟨v, hafter, hv⟩ := hmakes.slot
    · refine ⟨.owned s.store.cells.length, by rw [hafter, slot_own], fun later hlater => ?_⟩
      rw [hafter] at hlater ⊢
      exact h.observe_own (hlater _ rfl)
    · exact ⟨.frozen v, by rw [hafter, slot_bind], fun later _ => hv⟩

/-- **Views are live and selectors stay.** However a session has come about and whatever happens to it later, its
combined views answer as their sources do at that point, what its names refer to grows only where cells grow, and the
selectors that its steps make stay as they were made. -/
theorem faithful_of_run (steps : List Step) : (empty.run steps).Faithful :=
  (closed_empty.run steps).faithful

/-- Two cells and a view with one of them twice. -/
def twoCells : List Step := [.own "a" .cell ⟨[.present "x"]⟩, .own "b" .lock .empty, .combine "v" ["a", "b", "a"]]

/-- Growth that ends at its second expression, which cannot be written down. -/
def cutGrowth : Step := .grow "b" [.present "y", .present "not a label", .present "z"]

theorem faithful_of_run_twoCells :
    (∃ nested, ((empty.run twoCells).after (.combine "w" ["v", "b"])).slot "w" = .ok nested ∧
      (nested.live.observe (((empty.run twoCells).after (.combine "w" ["v", "b"])).run [cutGrowth]).store).toSelector =
        ⟨[.present "x", .present "y", .present "x", .present "y"]⟩) ∧
    (∃ grown, (empty.run twoCells).slot "b" = .ok grown ∧
      (grown.live.observe ((empty.run twoCells).run [cutGrowth]).store).toSelector.expressions = [.present "y"]) ∧
    ∃ copied, ((empty.run twoCells).after (.copy "c" "v" .shared)).slot "c" = .ok copied ∧
      (copied.live.observe (((empty.run twoCells).after (.copy "c" "v" .shared)).run [cutGrowth]).store).toSelector =
        ⟨[.present "x", .present "x"]⟩ := by
  have hfaithful := faithful_of_run twoCells
  have hsources : (empty.run twoCells).slotsOf ["v", "b"] = .ok [.view [.cell 0, .cell 1, .cell 0], .owned 1] := rfl
  have hgrown : (empty.run twoCells).slot "b" = .ok (.owned 1) := rfl
  have hview : (empty.run twoCells).view "v" =
      .ok ((Live.combined [.cell 0, .cell 1, .cell 0]).observe (empty.run twoCells).store) := rfl
  refine ⟨?_, ⟨.owned 1, hgrown, (hfaithful.segments hgrown [cutGrowth]).trans (by decide)⟩, ?_⟩
  · obtain ⟨nested, hslot, hanswers⟩ := hfaithful.combined hsources "w"
    exact ⟨nested, hslot, (hanswers [cutGrowth]).toSelector.trans (by decide)⟩
  · obtain ⟨copied, hslot, hstays⟩ := hfaithful.snapshots (.copy hview "c" .shared)
    refine ⟨copied, hslot, (hstays [cutGrowth] fun index _ hbuilt => ?_).trans (by decide)⟩
    simp [BuiltOn, cutGrowth] at hbuilt

end Session

end LabelFilter
