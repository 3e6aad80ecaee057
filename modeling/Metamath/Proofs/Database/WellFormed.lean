import Mathlib.Logic.Relation
import Metamath.Proofs.Database.Frame

/-!
# Well-formed databases

`Database.WellFormed` is what every accepted declaration preserves (`WellFormed.declare`): no symbol
is both a constant and a variable, no label is used twice, the active hypotheses are recorded and
well scoped, every scope has a table of just its floating hypotheses, and every assertion has a closed
frame. The tables only grow (`Database.Extends`), so records and frames stay what they were
(`Extends.hypothesis?_eq`, `Extends.framed`).
-/

namespace Metamath

/-- The table of a scope has the floating hypotheses of the scope, the latest first. -/
def Scope.Tabled (s : Scope) : Prop :=
  s.floating.reverse = entries s.hypotheses

theorem Scope.Tabled.mem_floating_iff {s : Scope} (h : s.Tabled) {v : Symbol} {l : Label} :
    (v, l) ∈ s.floating ↔ ∃ typecode, .floating l typecode v ∈ s.hypotheses := by
  rw [← mem_entries_iff, ← h, List.mem_reverse]

theorem Scope.Tabled.map_fst_floating {s : Scope} (h : s.Tabled) :
    (s.floating.map Prod.fst).reverse = subjects s.hypotheses := by
  rw [← map_fst_entries, ← h, List.map_reverse]

namespace Database

variable {db db' : Database}

/-- What holds of every database that declarations lead to. -/
structure WellFormed (db : Database) : Prop where
  disjoint_symbols : db.constants.Disjoint db.vars
  active_vars : ∀ v, db.isActiveVariable v → v ∈ db.vars
  nodup_labels : db.labels.Nodup
  active_subset : db.activeHypotheses ⊆ db.hypotheses
  nodup_active : (db.activeHypotheses.map Hypothesis.label).Nodup
  nodup_subjects : (subjects db.activeHypotheses).Nodup
  subjects_subset : subjects db.hypotheses ⊆ db.vars
  tabled : ∀ s ∈ db.scopes, s.Tabled
  wellScoped : WellScoped db.constants [] db.activeHypotheses
  framed : ∀ a ∈ db.assertions, ∃ hs, db.Framed a hs

theorem wellFormed_empty : WellFormed {} where
  disjoint_symbols := by simp
  active_vars := by simp [isActiveVariable, scopes]
  nodup_labels := List.nodup_nil
  active_subset := by simp [activeHypotheses, scopes]
  nodup_active := by simp [activeHypotheses, scopes]
  nodup_subjects := by simp [activeHypotheses, scopes]
  subjects_subset := by simp
  tabled := by simp [scopes, Scope.Tabled]
  wellScoped := by simp [activeHypotheses, scopes, WellScoped]
  framed := by simp

/-! ## Lookups -/

namespace WellFormed

theorem hypothesis?_eq_some_iff (h : db.WellFormed) {l : Label} {h₀ : Hypothesis} :
    db.hypothesis? l = some h₀ ↔ h₀ ∈ db.hypotheses ∧ h₀.label = l :=
  find?_key_eq_some_iff h.nodup_labels.of_append_left

theorem assertion?_eq_some_iff (h : db.WellFormed) {l : Label} {a : Assertion} :
    db.assertion? l = some a ↔ a ∈ db.assertions ∧ a.label = l :=
  find?_key_eq_some_iff h.nodup_labels.of_append_right

theorem activeHypothesis?_eq_some_iff (h : db.WellFormed) {l : Label} {h₀ : Hypothesis} :
    db.activeHypothesis? l = some h₀ ↔ h₀ ∈ db.activeHypotheses ∧ h₀.label = l :=
  find?_key_eq_some_iff h.nodup_active

theorem hypothesis?_of_active (h : db.WellFormed) {h₀ : Hypothesis}
    (hh : h₀ ∈ db.activeHypotheses) : db.hypothesis? h₀.label = some h₀ :=
  h.hypothesis?_eq_some_iff.2 ⟨h.active_subset hh, rfl⟩

/-- The variables in the tables are those with an active floating hypothesis. -/
theorem typed_eq (h : db.WellFormed) : db.typed = subjects db.activeHypotheses := by
  rw [typed, activeHypotheses, subjects, List.filterMap_flatMap]
  exact List.flatMap_congr fun s hs => (h.tabled s hs).map_fst_floating

/-- A variable has one active floating hypothesis at most. -/
theorem floating_unique (h : db.WellFormed) {l l' : Label} {c c' v : Symbol}
    (hh : .floating l c v ∈ db.activeHypotheses) (hh' : .floating l' c' v ∈ db.activeHypotheses) :
    l = l' ∧ c = c' := by
  obtain ⟨before, rest, heq⟩ := List.append_of_mem hh
  have hnodup := h.nodup_subjects
  rw [heq, subjects_append, subjects_floating] at hnodup
  rw [heq, List.mem_append, List.mem_cons] at hh'
  have hmem : ∀ {hs}, .floating l' c' v ∈ hs → v ∈ subjects hs := fun hm =>
    mem_subjects_iff.2 ⟨l', c', hm⟩
  rcases hh' with hh' | hh' | hh'
  · exact absurd (.head _) (List.disjoint_of_nodup_append hnodup (hmem hh'))
  · obtain ⟨rfl, rfl, -⟩ := Hypothesis.floating.inj hh'
    exact ⟨rfl, rfl⟩
  · exact absurd (hmem hh') (List.nodup_cons.1 hnodup.of_append_right).1

/-- What the table of an open scope says of a variable is the label of its floating hypothesis. -/
theorem lookup_floating_eq_some_iff (h : db.WellFormed) {s : Scope} (hs : s ∈ db.scopes) {l : Label}
    {v : Symbol} :
    s.floating.lookup v = some l ↔ ∃ typecode, .floating l typecode v ∈ s.hypotheses := by
  have hfound : ∀ {l}, s.floating.lookup v = some l →
      ∃ typecode, .floating l typecode v ∈ s.hypotheses := by
    intro l hl
    obtain ⟨before, after, heq, -⟩ := List.lookup_eq_some_iff.1 hl
    exact (h.tabled s hs).mem_floating_iff.1 (heq ▸ List.mem_append_right _ (.head _))
  refine ⟨hfound, ?_⟩
  rintro ⟨typecode, hh⟩
  have hentry := (h.tabled s hs).mem_floating_iff.2 ⟨typecode, hh⟩
  obtain ⟨l', hl'⟩ := Option.isSome_iff_exists.1
    (List.lookup_isSome_iff.2 ⟨_, hentry, beq_self_eq_true v⟩)
  obtain ⟨typecode', hh'⟩ := hfound hl'
  have hactive : ∀ {h₀}, h₀ ∈ s.hypotheses → h₀ ∈ db.activeHypotheses := fun hm =>
    List.mem_flatMap.2 ⟨s, hs, hm⟩
  rw [hl', (h.floating_unique (hactive hh) (hactive hh')).1]

/-- What the tables say of a variable is the label of its active floating hypothesis. -/
theorem floating?_eq_some_iff (h : db.WellFormed) {l : Label} {v : Symbol} :
    db.floating? v = some l ↔ ∃ typecode, .floating l typecode v ∈ db.activeHypotheses := by
  have hfound : ∀ {l}, db.floating? v = some l →
      ∃ typecode, .floating l typecode v ∈ db.activeHypotheses := by
    intro l hl
    obtain ⟨s, hs, hlookup⟩ := List.exists_of_findSome?_eq_some hl
    have hs' : s ∈ db.scopes := List.mem_reverse.2 hs
    obtain ⟨typecode, hh⟩ := (h.lookup_floating_eq_some_iff hs').1 hlookup
    exact ⟨typecode, List.mem_flatMap.2 ⟨s, hs', hh⟩⟩
  refine ⟨hfound, ?_⟩
  rintro ⟨typecode, hh⟩
  have hv : v ∈ db.typed := h.typed_eq ▸ mem_subjects_iff.2 ⟨l, typecode, hh⟩
  obtain ⟨l', hl'⟩ := Option.isSome_iff_exists.1 (floating?_isSome_iff.2 hv)
  obtain ⟨typecode', hh'⟩ := hfound hl'
  rw [hl', (h.floating_unique hh hh').1]

theorem over_of_addEssential (h : db.WellFormed) {l : Label} {e : Expr}
    (he : db.addEssential l e = .ok db') : e.Over db.constants (subjects db.activeHypotheses) :=
  h.typed_eq ▸ (addEssential_eq_ok_iff.1 he).2.1

theorem over_of_addAssertion (h : db.WellFormed) {l : Label} {kind : AssertionKind} {e : Expr}
    {a : Assertion} (ha : db.addAssertion l kind e = .ok (db', a)) :
    e.Over db.constants (subjects db.activeHypotheses) :=
  h.typed_eq ▸ (addAssertion_eq_ok_iff.1 ha).2.1

/-- No hypothesis has the label of an assertion. -/
theorem label_ne (h : db.WellFormed) {h₀ : Hypothesis} {a : Assertion} (hh : h₀ ∈ db.hypotheses)
    (ha : a ∈ db.assertions) : h₀.label ≠ a.label := by
  intro he
  have hd := List.disjoint_of_nodup_append h.nodup_labels
  exact hd (List.mem_map_of_mem hh) (he ▸ List.mem_map_of_mem ha)

theorem activeHypothesis?_of_assertion? (h : db.WellFormed) {l : Label} {a : Assertion}
    (ha : db.assertion? l = some a) : db.activeHypothesis? l = none := by
  obtain ⟨hm, rfl⟩ := h.assertion?_eq_some_iff.1 ha
  rw [Option.eq_none_iff_forall_ne_some]
  intro h₀ hh
  obtain ⟨hh, hl⟩ := h.activeHypothesis?_eq_some_iff.1 hh
  exact h.label_ne (h.active_subset hh) hm hl

theorem subjects_active_subset (h : db.WellFormed) : subjects db.activeHypotheses ⊆ db.vars := by
  intro v hv
  obtain ⟨l, typecode, hh⟩ := mem_subjects_iff.1 hv
  exact h.subjects_subset (mem_subjects_iff.2 ⟨l, typecode, h.active_subset hh⟩)

/-! ## Frames -/

/-- Every variable in use has an active floating hypothesis. -/
theorem mandatoryVariables_subset (h : db.WellFormed) {e : Expr}
    (he : e.Over db.constants (subjects db.activeHypotheses)) :
    db.mandatoryVariables e ⊆ subjects db.activeHypotheses := by
  intro v hv
  obtain ⟨hvar, hv⟩ := mem_mandatoryVariables_iff.1 hv
  have hc : v ∉ db.constants := fun hc => h.disjoint_symbols hc hvar
  rcases hv with hv | ⟨l, e', hh, hv⟩
  · exact (he.mem hv).resolve_left hc
  · exact ((h.wellScoped.expr_over hh).mem hv).resolve_left hc

theorem mem_subjects_frame_iff (h : db.WellFormed) {e : Expr}
    (he : e.Over db.constants (subjects db.activeHypotheses)) {v : Symbol} :
    v ∈ subjects (db.mandatoryHypotheses (db.mandatoryVariables e)) ↔
      v ∈ db.mandatoryVariables e := by
  rw [mem_subjects_mandatoryHypotheses_iff]
  exact and_iff_right_of_imp fun hv => h.mandatoryVariables_subset he hv

/-- The computed frame of an expression is closed. -/
theorem framed_frame (h : db.WellFormed) {e : Expr} (l : Label) (kind : AssertionKind)
    (he : e.Over db.constants (subjects db.activeHypotheses)) :
    db.Framed (db.frame l kind e) (db.mandatoryHypotheses (db.mandatoryVariables e)) where
  records := by
    rw [frame, List.map_map]
    refine List.map_congr_left fun h₀ hh => ?_
    exact h.hypothesis?_of_active ((db.mandatoryHypotheses_sublist _).subset hh)
  wellScoped := by
    refine h.wellScoped.filter (fun _ _ => rfl) (fun _ _ _ => List.contains_iff_mem) ?_ (by simp)
    intro l' e' hh s hs
    rcases (h.wellScoped.expr_over hh).mem hs with hc | hv
    · exact .inl hc
    · exact .inr (mem_mandatoryVariables_iff.2 ⟨h.subjects_active_subset hv, .inr ⟨l', e', hh, hs⟩⟩)
  nodup_subjects :=
    h.nodup_subjects.sublist ((db.mandatoryHypotheses_sublist _).filterMap Hypothesis.subject?)
  subjects_subset := by
    intro v hv
    exact h.subjects_active_subset (mem_subjects_mandatoryHypotheses_iff.1 hv).1
  expr_over := by
    refine he.mono (List.Subset.refl _) fun s hs hv => .inr ?_
    rw [h.mem_subjects_frame_iff he]
    exact mem_mandatoryVariables_iff.2 ⟨h.subjects_active_subset hv, .inl hs⟩
  disjoint_mem := by
    intro p hp
    rw [h.mem_subjects_frame_iff he, h.mem_subjects_frame_iff he]
    exact mem_used_of_mem_mandatoryPairs hp

end WellFormed

/-! ## Growing tables -/

/-- Every record of the first database is one of the second. -/
structure Extends (db db' : Database) : Prop where
  constants : db.constants ⊆ db'.constants
  vars : db.vars ⊆ db'.vars
  hypotheses : db.hypotheses <:+ db'.hypotheses
  assertions : db.assertions <:+ db'.assertions

namespace Extends

theorem refl (db : Database) : db.Extends db where
  constants := List.Subset.refl _
  vars := List.Subset.refl _
  hypotheses := List.suffix_refl _
  assertions := List.suffix_refl _

theorem trans {db'' : Database} (h : db.Extends db') (h' : db'.Extends db'') : db.Extends db'' where
  constants := List.Subset.trans h.constants h'.constants
  vars := List.Subset.trans h.vars h'.vars
  hypotheses := h.hypotheses.trans h'.hypotheses
  assertions := h.assertions.trans h'.assertions

theorem hypothesis?_eq (h : db.Extends db') (hw : db'.WellFormed) {l : Label} {h₀ : Hypothesis}
    (hl : db.hypothesis? l = some h₀) : db'.hypothesis? l = some h₀ := by
  refine hw.hypothesis?_eq_some_iff.2 ⟨h.hypotheses.subset (List.mem_of_find?_eq_some hl), ?_⟩
  simpa using List.find?_some hl

theorem assertion?_eq (h : db.Extends db') (hw : db'.WellFormed) {l : Label} {a : Assertion}
    (hl : db.assertion? l = some a) : db'.assertion? l = some a := by
  refine hw.assertion?_eq_some_iff.2 ⟨h.assertions.subset (List.mem_of_find?_eq_some hl), ?_⟩
  simpa using List.find?_some hl

theorem framed (h : db.Extends db') (hw : db'.WellFormed) {a : Assertion} {hs : List Hypothesis}
    (hf : db.Framed a hs) : db'.Framed a hs :=
  hf.mono h.constants h.vars fun _ _ => h.hypothesis?_eq hw

end Extends

theorem extends_of_declare {d : Declaration} (h : db.declare d = .ok db') : db.Extends db' := by
  obtain ⟨hc, hv, hh, ha⟩ := tables_of_declare h
  exact ⟨hc, hv, ⟨_, hh.symm⟩, ⟨_, ha.symm⟩⟩

/-! ## Accepted declarations keep a database well-formed -/

namespace WellFormed

/-- A change that records no statement and puts none in force. -/
theorem of_extends (h : db.WellFormed) (hx : db.Extends db')
    (hh : db'.hypotheses = db.hypotheses) (ha : db'.assertions = db.assertions)
    (hp : db'.activeHypotheses <+: db.activeHypotheses) (ht : ∀ s ∈ db'.scopes, s.Tabled)
    (hd : db'.constants.Disjoint db'.vars) (hv : ∀ v, db'.isActiveVariable v → v ∈ db'.vars) :
    db'.WellFormed where
  disjoint_symbols := hd
  active_vars := hv
  nodup_labels := by
    rw [labels, hh, ha]
    exact h.nodup_labels
  active_subset := by
    rw [hh]
    exact List.Subset.trans hp.subset h.active_subset
  nodup_active := h.nodup_active.sublist (hp.sublist.map _)
  nodup_subjects := h.nodup_subjects.sublist (hp.sublist.filterMap _)
  subjects_subset := by
    rw [hh]
    exact List.Subset.trans h.subjects_subset hx.vars
  tabled := ht
  wellScoped := by
    obtain ⟨rest, hr⟩ := hp
    have hs := h.wellScoped
    rw [← hr] at hs
    exact (WellScoped.append_iff.1 hs).1.mono hx.constants (List.Subset.refl _)
  framed := by
    rw [ha]
    refine fun a hm => (h.framed a hm).imp fun _ hf => hf.mono hx.constants hx.vars ?_
    intro l h₀ hl
    rwa [hypothesis?, hh]

theorem tabled_cons (h : db.WellFormed) {inner : Scope} (hi : inner.Tabled) :
    ∀ s ∈ (inner :: db.enclosing).reverse, s.Tabled := by
  intro s hs
  rcases List.mem_cons.1 (List.mem_reverse.1 hs) with rfl | hs
  · exact hi
  · exact h.tabled s (List.mem_reverse.2 (.tail _ hs))

theorem tabled_scope (h : db.WellFormed) : db.scope.Tabled :=
  h.tabled db.scope (List.mem_reverse.2 (.head _))

/-- What it takes to record a hypothesis and to give the innermost scope a new table. -/
theorem addHypothesis (h : db.WellFormed) (h₀ : Hypothesis)
    (hl : db.checkLabel h₀.label = .ok ())
    (hs : WellScoped db.constants (subjects db.activeHypotheses) [h₀])
    (hnew : ∀ v ∈ subjects [h₀], v ∈ db.vars ∧ v ∉ subjects db.activeHypotheses)
    {table : List (Symbol × Label)}
    (htable : table.reverse = db.scope.floating.reverse ++ entries [h₀]) :
    ((db.addHypothesis h₀).withTable table).WellFormed := by
  obtain ⟨-, -, hfree⟩ := checkLabel_eq_ok_iff.1 hl
  have hnodup : (db.addHypothesis h₀).labels.Nodup := List.nodup_cons.2 ⟨hfree, h.nodup_labels⟩
  have hactive : h₀.label ∉ db.activeHypotheses.map Hypothesis.label := fun hm =>
    hfree (List.mem_append_left _ (List.map_subset _ h.active_subset hm))
  have hnow : ((db.addHypothesis h₀).withTable table).activeHypotheses =
      db.activeHypotheses ++ [h₀] := by
    rw [activeHypotheses_withTable, activeHypotheses_addHypothesis]
  exact
    { disjoint_symbols := h.disjoint_symbols
      active_vars := by
        intro v hv
        rw [isActiveVariable_iff] at hv
        exact h.active_vars v (isActiveVariable_iff.2 hv)
      nodup_labels := hnodup
      active_subset := by
        rw [hnow]
        refine List.append_subset.2 ⟨List.subset_cons_of_subset _ h.active_subset, ?_⟩
        simp [withTable, Database.addHypothesis]
      nodup_active := by
        rw [hnow, List.map_append, List.map_singleton, ← List.concat_eq_append]
        exact h.nodup_active.concat hactive
      nodup_subjects := by
        rw [hnow, subjects_append]
        refine h.nodup_subjects.append ?_ fun v hv hv₀ => (hnew v hv₀).2 hv
        cases h₀ <;> simp
      subjects_subset := by
        change subjects ([h₀] ++ db.hypotheses) ⊆ db.vars
        rw [subjects_append]
        exact List.append_subset.2 ⟨fun v hv => (hnew v hv).1, h.subjects_subset⟩
      tabled := by
        refine h.tabled_cons (htable.trans ?_)
        rw [h.tabled_scope]
        exact (entries_append _ _).symm
      wellScoped := by
        rw [hnow]
        refine WellScoped.append_iff.2 ⟨h.wellScoped, ?_⟩
        rwa [List.append_nil]
      framed := by
        refine fun a ha => (h.framed a ha).imp fun _ hf =>
          hf.mono (List.Subset.refl _) (List.Subset.refl _) fun l h₁ hl₁ => ?_
        obtain ⟨hm, rfl⟩ := h.hypothesis?_eq_some_iff.1 hl₁
        exact (find?_key_eq_some_iff hnodup.of_append_left).2 ⟨List.mem_cons_of_mem _ hm, rfl⟩ }

theorem addAssertion (h : db.WellFormed) {l : Label} {kind : AssertionKind} {e : Expr}
    {a : Assertion} (ha : db.addAssertion l kind e = .ok (db', a)) : db'.WellFormed := by
  have he := h.over_of_addAssertion ha
  obtain ⟨hl, -, -, rfl⟩ := addAssertion_eq_ok_iff.1 ha
  obtain ⟨-, -, hfree⟩ := checkLabel_eq_ok_iff.1 hl
  refine { h with nodup_labels := ?_, framed := ?_ }
  · rw [labels, List.map_cons]
    exact (List.perm_middle.nodup_iff).2 (List.nodup_cons.2 ⟨hfree, h.nodup_labels⟩)
  · intro a ha
    rcases List.mem_cons.1 ha with rfl | ha
    · exact ⟨_, (h.framed_frame l kind he).mono (List.Subset.refl _) (List.Subset.refl _)
        fun _ _ hl => hl⟩
    · exact (h.framed a ha).imp fun _ hf => hf.mono (List.Subset.refl _) (List.Subset.refl _)
        fun _ _ hl => hl

/-- Every accepted declaration keeps a database well-formed. -/
theorem declare (h : db.WellFormed) {d : Declaration} (hd : db.declare d = .ok db') :
    db'.WellFormed := by
  have hx := extends_of_declare hd
  cases d with
  | openScope =>
    obtain rfl := Except.ok.inj hd
    refine h.of_extends hx rfl rfl (by simp) ?_ h.disjoint_symbols fun v hv => h.active_vars v ?_
    · intro s hs
      rcases List.mem_cons.1 (List.mem_reverse.1 hs) with rfl | hs
      · rfl
      · exact h.tabled s (List.mem_reverse.2 hs)
    · simpa [pushScope, isActiveVariable_iff] using hv
  | closeScope =>
    obtain ⟨outer, rest, he, rfl⟩ := popScope_eq_ok_iff.1 hd
    refine h.of_extends hx rfl rfl ?_ ?_ h.disjoint_symbols fun v hv => h.active_vars v ?_
    · rw [activeHypotheses_of_enclosing he]
      exact List.prefix_append _ _
    · intro s hs
      exact h.tabled s (List.mem_reverse.2 (.tail _ (he ▸ List.mem_reverse.1 hs)))
    · rw [isActiveVariable_iff] at hv ⊢
      rw [he, List.exists_mem_cons_iff]
      exact .inr hv
  | constant s =>
    obtain ⟨-, -, hs, -, -, rfl⟩ := addConstant_eq_ok_iff.1 hd
    exact h.of_extends hx rfl rfl (List.prefix_refl _) h.tabled
      (List.disjoint_cons_left.2 ⟨hs, h.disjoint_symbols⟩) h.active_vars
  | var s =>
    obtain ⟨-, hs, -, -, rfl⟩ := addVariable_eq_ok_iff.1 hd
    refine h.of_extends hx rfl rfl ?_ (h.tabled_cons h.tabled_scope) ?_ fun v hv => ?_
    · simp [activeHypotheses, scopes]
    · intro t ht hv
      rcases List.mem_insert_iff.1 hv with rfl | hv
      · exact hs ht
      · exact h.disjoint_symbols ht hv
    · rw [isActiveVariable_iff, List.mem_cons] at hv
      rw [List.mem_insert_iff]
      rcases hv with (rfl | hv) | hv
      · exact .inl rfl
      · exact .inr (h.active_vars v (isActiveVariable_iff.2 (.inl hv)))
      · exact .inr (h.active_vars v (isActiveVariable_iff.2 (.inr hv)))
  | floating l typecode v =>
    obtain ⟨hl, hc, hv, hf, rfl⟩ := addFloating_eq_ok_iff.1 hd
    rw [h.typed_eq] at hf
    refine h.addHypothesis (.floating l typecode v) hl ⟨hc, trivial⟩ ?_ List.reverse_cons
    simpa using ⟨h.active_vars v hv, hf⟩
  | essential l e =>
    have he := h.over_of_addEssential hd
    obtain ⟨hl, -, rfl⟩ := addEssential_eq_ok_iff.1 hd
    exact h.addHypothesis (.essential l e) hl ⟨he, trivial⟩ (by simp) (by simp)
  | disjoint vs =>
    obtain ⟨-, -, -, rfl⟩ := addDisjoint_eq_ok_iff.1 hd
    refine h.of_extends hx rfl rfl ?_ (h.tabled_cons h.tabled_scope) h.disjoint_symbols
      fun v hv => h.active_vars v ?_
    · simp [activeHypotheses, scopes]
    · rw [isActiveVariable_iff] at hv ⊢
      exact hv
  | assertion l kind e =>
    obtain ⟨⟨db₁, a⟩, ha, rfl⟩ := map_eq_ok_iff.1 hd
    exact h.addAssertion ha

end WellFormed

end Database

/-! ## Sequences of declarations -/

/-- The label that a declaration puts to use. -/
def Declaration.label? : Declaration → Option Label
  | floating l .. | essential l _ | assertion l .. => some l
  | _ => none

/-- The label of a declaration, if it has one, is made of label characters. -/
def Declaration.WellLabelled (d : Declaration) : Prop :=
  ∀ l ∈ d.label?, isLabel l

namespace Database

variable {db db' : Database} {p : Declaration → Prop}

/-- Accepted declarations with a property lead from the first database to the second. -/
def Declares (p : Declaration → Prop) : Database → Database → Prop :=
  Relation.ReflTransGen fun db db' => ∃ d, p d ∧ db.declare d = .ok db'

theorem Declares.single {d : Declaration} (hp : p d) (h : db.declare d = .ok db') :
    Declares p db db' :=
  Relation.ReflTransGen.single ⟨d, hp, h⟩

theorem Declares.mono {q : Declaration → Prop} (h : Declares p db db') (hp : ∀ d, p d → q d) :
    Declares q db db' :=
  Relation.ReflTransGen.mono (fun _ _ ⟨d, hd, hdb⟩ => ⟨d, hp d hd, hdb⟩) db db' h

theorem Declares.extends (h : Declares p db db') : db.Extends db' := by
  induction h with
  | refl => exact Extends.refl db
  | tail _ hd ih =>
    obtain ⟨d, -, hd⟩ := hd
    exact ih.trans (extends_of_declare hd)

theorem Declares.wellFormed (h : Declares p db db') (hw : db.WellFormed) : db'.WellFormed := by
  induction h with
  | refl => exact hw
  | tail _ hd ih =>
    obtain ⟨d, -, hd⟩ := hd
    exact ih.declare hd

/-- An accepted declaration adds its label to those in use. -/
theorem mem_labels_of_declare {d : Declaration} (hd : db.declare d = .ok db') {l : Label} :
    l ∈ db'.labels ↔ l ∈ d.label? ∨ l ∈ db.labels := by
  obtain ⟨-, -, hh, ha⟩ := tables_of_declare hd
  rw [labels, labels, hh, ha]
  cases d <;> simp [Declaration.label?, Declaration.hypothesis?, Declaration.assertion?,
    Hypothesis.label, frame, eq_comm, or_left_comm]

theorem Declares.isLabel (h : Declares Declaration.WellLabelled db db')
    (hl : ∀ l ∈ db.labels, isLabel l) : ∀ l ∈ db'.labels, isLabel l := by
  induction h with
  | refl => exact hl
  | tail _ hd ih =>
    obtain ⟨d, hw, hd⟩ := hd
    exact fun l hl => ((mem_labels_of_declare hd).1 hl).elim (hw l) (ih l)

end Database

end Metamath
