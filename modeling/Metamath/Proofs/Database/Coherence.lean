import Mathlib.Data.List.Perm.Basic
import Metamath.Proofs.Database.History

/-!
# Coherent databases

`Database.Coherent` is what the tables and the open scopes of a database have to do with one another,
and it holds after any declarations, accepted or refused (`coherent_attemptAll`). The part of it that
spans several scopes rests on `Scope.Grounded`: what a scope mentions is declared in that scope or in
one around it, so that closing the scope of a variable closes every scope that mentions the variable.
-/

namespace Metamath

/-! ## Scopes that stand on the scopes around them -/

/-- The variables that a scope gives a typecode to or declares disjoint are variables of the scope or
of one around it. -/
structure Scope.Grounded (s : Scope) (outer : List Scope) : Prop where
  subjects : ∀ v ∈ subjects s.hypotheses, ∃ t ∈ s :: outer, v ∈ t.vars
  groups : ∀ g ∈ s.disjoint, 2 ≤ g.length ∧ g.Pairwise (· < ·) ∧
    ∀ v ∈ g, ∃ t ∈ s :: outer, v ∈ t.vars

theorem Scope.grounded_empty (outer : List Scope) : Scope.Grounded {} outer where
  subjects := by simp
  groups := by simp

namespace Database

variable {db db' : Database} {d : Declaration}

theorem isActiveVariable_iff_mem_stack {v : Symbol} :
    db.isActiveVariable v ↔ ∃ s ∈ db.stack, v ∈ s.vars := by
  rw [isActiveVariable_iff, stack, List.exists_mem_cons_iff]

/-- Every name in use: constants, variables and labels. -/
def names (db : Database) : List String :=
  db.constants ++ (db.vars ++ db.labels)

/-- What every accepted declaration preserves, next to being well-formed. -/
structure Layered (db : Database) : Prop where
  nodup_names : db.names.Nodup
  nodup_vars : (db.stack.flatMap Scope.vars).Nodup
  grounded : ∀ s outer, s :: outer <:+ db.stack → s.Grounded outer
  essential_over : ∀ l e, .essential l e ∈ db.hypotheses → e.Over db.constants db.vars

theorem layered_empty : Layered {} where
  nodup_names := List.nodup_nil
  nodup_vars := List.nodup_nil
  grounded := by
    intro s outer h
    rcases List.suffix_cons_iff.1 h with h | h
    · obtain ⟨rfl, rfl⟩ := List.cons.inj h
      exact Scope.grounded_empty _
    · cases List.suffix_nil.1 h
  essential_over := by simp

/-- A label that is free is no name. -/
theorem notMem_names_of_checkLabel {l : Label} (h : db.checkLabel l = .ok ()) : l ∉ db.names := by
  obtain ⟨hc, hv, hl⟩ := checkLabel_eq_ok_iff.1 h
  simp [names, hc, hv, hl]

/-- A declaration puts at most one name to use, and that one was free. -/
theorem names_of_declare (h : db.declare d = .ok db') :
    db'.names = db.names ∨ ∃ n, n ∉ db.names ∧ db'.names.Perm (n :: db.names) := by
  cases d with
  | constant s =>
    obtain ⟨-, -, hv, hl, hc, rfl⟩ := addConstant_eq_ok_iff.1 h
    exact .inr ⟨s, by simp [names, hc, hv, hl], .refl _⟩
  | var s =>
    obtain ⟨-, hc, hl, -, rfl⟩ := addVariable_eq_ok_iff.1 h
    by_cases hv : s ∈ db.vars
    · refine .inl ?_
      rw [names, List.insert_of_mem hv]
      rfl
    · refine .inr ⟨s, by simp [names, hc, hv, hl], ?_⟩
      rw [names, List.insert_of_not_mem hv]
      exact List.perm_middle
  | floating l typecode v =>
    obtain ⟨hl, -, -, -, rfl⟩ := addFloating_eq_ok_iff.1 h
    refine .inr ⟨l, notMem_names_of_checkLabel hl, ?_⟩
    rw [names, ← List.append_assoc, names, ← List.append_assoc]
    exact List.perm_middle
  | essential l e =>
    obtain ⟨hl, -, rfl⟩ := addEssential_eq_ok_iff.1 h
    refine .inr ⟨l, notMem_names_of_checkLabel hl, ?_⟩
    rw [names, ← List.append_assoc, names, ← List.append_assoc]
    exact List.perm_middle
  | assertion l kind e =>
    obtain ⟨⟨db₁, a⟩, h₁, rfl⟩ := map_eq_ok_iff.1 h
    obtain ⟨hl, -, -, rfl⟩ := addAssertion_eq_ok_iff.1 h₁
    refine .inr ⟨l, notMem_names_of_checkLabel hl, ?_⟩
    simp only [names, labels, ← List.append_assoc]
    exact List.perm_middle
  | _ =>
    obtain rfl := effect_of_declare h
    exact .inl rfl

/-- A declaration that neither opens nor closes a scope adds a variable to the innermost one only if
the variable is not active. -/
theorem nodup_vars_of_declare (hn : (db.stack.flatMap Scope.vars).Nodup)
    (h : db.declare d = .ok db') : (db'.stack.flatMap Scope.vars).Nodup := by
  rw [stack_of_declare h]
  rcases d.open_or_close_or_isLocal with rfl | rfl | hl
  · exact hn
  · rw [stack, List.flatMap_cons] at hn
    exact hn.of_append_right
  · rw [stack, onScopes_of_isLocal hl, List.flatMap_cons]
    cases d with
    | var v =>
      obtain ⟨-, -, -, hv, -⟩ := addVariable_eq_ok_iff.1 h
      refine List.nodup_cons.2 ⟨?_, hn⟩
      rw [isActiveVariable_iff_mem_stack, ← List.mem_flatMap] at hv
      exact hv
    | _ => exact hn

/-- What is accepted mentions active variables only. -/
theorem grounded_add (hg : db.scope.Grounded db.enclosing) (h : db.declare d = .ok db') :
    (db.scope.add d).Grounded db.enclosing := by
  -- a variable that was active stays active in the scope that has grown
  have hactive : ∀ v, (∃ t ∈ db.stack, v ∈ t.vars) →
      ∃ t ∈ db.scope.add d :: db.enclosing, v ∈ t.vars := by
    intro v hv
    rw [stack, List.exists_mem_cons_iff] at hv
    rw [List.exists_mem_cons_iff]
    refine hv.imp_left fun hv => ?_
    cases d with
    | var u => exact List.mem_cons_of_mem u hv
    | _ => exact hv
  have hsubjects := fun v hv => hactive v (hg.subjects v hv)
  have hgroups := fun g hm => (hg.groups g hm).imp_right fun hs => hs.imp_right fun hv v hm =>
    hactive v (hv v hm)
  cases d with
  | floating l typecode v =>
    obtain ⟨-, -, hv, -, -⟩ := addFloating_eq_ok_iff.1 h
    refine ⟨fun u hu => ?_, hgroups⟩
    rw [Scope.add, subjects_append, List.mem_append] at hu
    rcases hu with hu | hu
    · exact hsubjects u hu
    · obtain rfl : u = v := by simpa using hu
      exact hactive u (isActiveVariable_iff_mem_stack.1 hv)
  | essential l e =>
    refine ⟨fun u hu => hsubjects u ?_, hgroups⟩
    simpa [Scope.add] using hu
  | disjoint vs =>
    obtain ⟨hv, hnodup, hlen, -⟩ := addDisjoint_eq_ok_iff.1 h
    refine ⟨hsubjects, fun g hg => ?_⟩
    rcases List.mem_append.1 hg with hg | hg
    · exact hgroups g hg
    · obtain rfl := List.mem_singleton.1 hg
      refine ⟨by rwa [(sortSymbols_perm vs).length_eq], pairwise_sortSymbols hnodup, fun v hm => ?_⟩
      have hmem := (sortSymbols_perm vs).mem_iff.1 hm
      exact hactive v (isActiveVariable_iff_mem_stack.1 (hv v hmem))
  | _ => exact ⟨hsubjects, hgroups⟩

theorem grounded_of_declare (hg : ∀ s outer, s :: outer <:+ db.stack → s.Grounded outer)
    (h : db.declare d = .ok db') : ∀ s outer, s :: outer <:+ db'.stack → s.Grounded outer := by
  intro s outer hs
  rw [stack_of_declare h] at hs
  rcases d.open_or_close_or_isLocal with rfl | rfl | hl
  · rcases List.suffix_cons_iff.1 hs with hs | hs
    · obtain ⟨rfl, rfl⟩ := List.cons.inj hs
      exact Scope.grounded_empty _
    · exact hg s outer hs
  · rw [Declaration.onScopes] at hs
    exact hg s outer (hs.trans (List.tail_suffix _))
  · rw [stack, onScopes_of_isLocal hl] at hs
    rcases List.suffix_cons_iff.1 hs with hs | hs
    · obtain ⟨rfl, rfl⟩ := List.cons.inj hs
      exact grounded_add (hg _ _ (List.suffix_refl _)) h
    · exact hg s outer (hs.trans (List.suffix_cons _ _))

theorem essential_over_of_declare (hw : db.WellFormed)
    (he : ∀ l e, .essential l e ∈ db.hypotheses → e.Over db.constants db.vars)
    (h : db.declare d = .ok db') :
    ∀ l e, .essential l e ∈ db'.hypotheses → e.Over db'.constants db'.vars := by
  obtain ⟨hc, hv, hh, -⟩ := tables_of_declare h
  intro l e hm
  refine Expr.Over.mono ?_ hc fun s _ hs => .inr (hv hs)
  rw [hh, List.mem_append] at hm
  rcases hm with hm | hm
  · cases d <;> simp only [Declaration.hypothesis?, Option.toList_some, Option.toList_none,
      List.mem_singleton, List.not_mem_nil, reduceCtorEq] at hm
    obtain ⟨rfl, rfl⟩ := Hypothesis.essential.inj hm
    have hover := hw.over_of_addEssential h
    exact hover.mono (List.Subset.refl _) fun s _ hs => .inr (hw.subjects_active_subset hs)
  · exact he l e hm

theorem Layered.declare (hw : db.WellFormed) (hy : db.Layered) (h : db.declare d = .ok db') :
    db'.Layered where
  nodup_names := by
    rcases names_of_declare h with hn | ⟨n, hn, hp⟩
    · rw [hn]
      exact hy.nodup_names
    · exact hp.nodup_iff.2 (List.nodup_cons.2 ⟨hn, hy.nodup_names⟩)
  nodup_vars := nodup_vars_of_declare hy.nodup_vars h
  grounded := grounded_of_declare hy.grounded h
  essential_over := essential_over_of_declare hw hy.essential_over h

theorem layered_attemptAll (ds : List Declaration) : (({} : Database).attemptAll ds).Layered :=
  (attemptAll_induction (P := fun db => db.WellFormed ∧ db.Layered)
    (fun _ _ _ hd h => ⟨h.1.declare hd, h.2.declare h.1 hd⟩) ⟨wellFormed_empty, layered_empty⟩ ds).2

/-- What is grounded in a scope is active. -/
theorem Layered.isActiveVariable (h : db.Layered) {s : Scope} (hs : s ∈ db.scopes) :
    (∀ v ∈ subjects s.hypotheses, db.isActiveVariable v) ∧
      ∀ g ∈ s.disjoint, 2 ≤ g.length ∧ g.Pairwise (· < ·) ∧ ∀ v ∈ g, db.isActiveVariable v := by
  obtain ⟨inner, outer, hsplit⟩ := List.append_of_mem (mem_scopes_iff.1 hs)
  have hsuffix : s :: outer <:+ db.stack := ⟨inner, hsplit.symm⟩
  have hg := h.grounded s outer hsuffix
  have hactive : ∀ v, (∃ t ∈ s :: outer, v ∈ t.vars) → db.isActiveVariable v := by
    rintro v ⟨t, ht, hv⟩
    exact isActiveVariable_iff_mem_stack.2 ⟨t, hsuffix.subset ht, hv⟩
  refine ⟨fun v hv => hactive v (hg.subjects v hv), fun g hm => ?_⟩
  obtain ⟨hlen, hsorted, hv⟩ := hg.groups g hm
  exact ⟨hlen, hsorted, fun v hm => hactive v (hv v hm)⟩

end Database

/-! ## Coherence -/

namespace Database

variable {db : Database}

/-- What the tables and the open scopes of a database have to do with one another. -/
structure Coherent (db : Database) : Prop where
  scopes_ne_nil : db.scopes ≠ []
  /-- No name has two roles. -/
  disjoint_names : [db.constants, db.vars, db.hypotheses.map Hypothesis.label,
    db.assertions.map Assertion.label].Pairwise List.Disjoint
  /-- No two open scopes list the same variable, nor does one list it twice. -/
  nodup_vars : (db.scopes.flatMap Scope.vars).Nodup
  vars_subset : ∀ s ∈ db.scopes, s.vars ⊆ db.vars
  nodup_labels : (db.scopes.flatMap fun s => s.hypotheses.map Hypothesis.label).Nodup
  recorded : ∀ s ∈ db.scopes, ∀ h ∈ s.hypotheses, db.hypothesis? h.label = some h
  /-- No variable has two entries, whether in one open scope or in two. -/
  nodup_floating : ((db.scopes.flatMap Scope.floating).map Prod.fst).Nodup
  lookup_floating_iff : ∀ s ∈ db.scopes, ∀ v l, s.floating.lookup v = some l ↔
    l ∈ s.hypotheses.map Hypothesis.label ∧ ∃ typecode,
      db.hypothesis? l = some (.floating l typecode v) ∧ db.isConstant typecode ∧
        db.isActiveVariable v
  essential_head : ∀ l e, .essential l e ∈ db.hypotheses →
    ∃ typecode rest, e = typecode :: rest ∧ db.isConstant typecode
  essential_tail : ∀ s ∈ db.scopes, ∀ l e, .essential l e ∈ s.hypotheses →
    ∀ x ∈ e.tail, db.isConstant x ∨ (db.isVariable x ∧ (db.floating? x).isSome)
  /-- A group has two members at least, in increasing order, and all of them are active. -/
  groups : ∀ s ∈ db.scopes, ∀ g ∈ s.disjoint,
    2 ≤ g.length ∧ g.Pairwise (· < ·) ∧ ∀ v ∈ g, db.isActiveVariable v

theorem mem_activeHypotheses_of_mem {s : Scope} (hs : s ∈ db.scopes) {h : Hypothesis}
    (hh : h ∈ s.hypotheses) : h ∈ db.activeHypotheses :=
  List.mem_flatMap.2 ⟨s, hs, hh⟩

theorem Layered.disjoint_names (h : db.Layered) :
    [db.constants, db.vars, db.hypotheses.map Hypothesis.label,
      db.assertions.map Assertion.label].Pairwise List.Disjoint := by
  have hn := h.nodup_names
  rw [names, labels] at hn
  have hc := List.disjoint_of_nodup_append hn
  have hv := List.disjoint_of_nodup_append hn.of_append_right
  have hl := List.disjoint_of_nodup_append hn.of_append_right.of_append_right
  simp only [List.disjoint_append_right] at hc hv
  simp only [List.pairwise_cons, List.forall_mem_cons, List.not_mem_nil, false_implies,
    implies_true, List.Pairwise.nil, and_true]
  exact ⟨hc, hv, hl⟩

theorem WellFormed.nodup_floating (hw : db.WellFormed) :
    ((db.scopes.flatMap Scope.floating).map Prod.fst).Nodup := by
  have hp : ((db.scopes.flatMap Scope.floating).map Prod.fst).Perm db.typed := by
    rw [List.map_flatMap, typed]
    exact List.Perm.flatMap_left _ fun s _ => (List.reverse_perm _).symm
  rw [hp.nodup_iff, hw.typed_eq]
  exact hw.nodup_subjects

/-- The table of a scope has the entry of a variable exactly when the scope has a label that is
recorded as the floating hypothesis of the variable. -/
theorem WellFormed.lookup_floating_iff (hw : db.WellFormed) (hy : db.Layered) {s : Scope}
    (hs : s ∈ db.scopes) {v : Symbol} {l : Label} :
    s.floating.lookup v = some l ↔ l ∈ s.hypotheses.map Hypothesis.label ∧ ∃ typecode,
      db.hypothesis? l = some (.floating l typecode v) ∧ db.isConstant typecode ∧
        db.isActiveVariable v := by
  rw [hw.lookup_floating_eq_some_iff hs]
  constructor
  · rintro ⟨typecode, hh⟩
    have hm := mem_activeHypotheses_of_mem hs hh
    refine ⟨List.mem_map.2 ⟨_, hh, rfl⟩, typecode, hw.hypothesis?_of_active hm, ?_, ?_⟩
    · exact isConstant_iff.2 (hw.wellScoped.expr_over hm).1
    · exact (hy.isActiveVariable hs).1 v (mem_subjects_iff.2 ⟨l, typecode, hh⟩)
  · rintro ⟨hl, typecode, hr, -, -⟩
    obtain ⟨h, hh, rfl⟩ := List.mem_map.1 hl
    rw [hw.hypothesis?_of_active (mem_activeHypotheses_of_mem hs hh)] at hr
    exact ⟨typecode, Option.some.inj hr ▸ hh⟩

/-- Whatever declarations were tried, accepted or not, the database is coherent. -/
theorem coherent_attemptAll (ds : List Declaration) : (({} : Database).attemptAll ds).Coherent := by
  have hw := wellFormed_attemptAll ds
  have hy := layered_attemptAll ds
  generalize ({} : Database).attemptAll ds = db at hw hy
  exact
    { scopes_ne_nil := by simp [scopes]
      disjoint_names := hy.disjoint_names
      nodup_vars := by
        rw [scopes_eq_reverse_stack]
        exact ((List.reverse_perm _).flatMap_right _).nodup_iff.2 hy.nodup_vars
      vars_subset := by
        intro s hs v hv
        exact hw.active_vars v (isActiveVariable_iff_mem_stack.2 ⟨s, mem_scopes_iff.1 hs, hv⟩)
      nodup_labels := by
        rw [← List.map_flatMap]
        exact hw.nodup_active
      recorded := fun s hs h hh => hw.hypothesis?_of_active (mem_activeHypotheses_of_mem hs hh)
      nodup_floating := hw.nodup_floating
      lookup_floating_iff := fun s hs v l => hw.lookup_floating_iff hy hs
      essential_head := by
        intro l e he
        have hover := hy.essential_over l e he
        cases e with
        | nil => exact hover.elim
        | cons typecode rest => exact ⟨typecode, rest, rfl, isConstant_iff.2 hover.1⟩
      essential_tail := by
        intro s hs l e he x hx
        have hover := hw.wellScoped.expr_over (mem_activeHypotheses_of_mem hs he)
        rcases hover.mem (List.mem_of_mem_tail hx) with hc | hv
        · exact .inl (isConstant_iff.2 hc)
        · refine .inr ⟨isVariable_iff.2 (hw.subjects_active_subset hv), ?_⟩
          exact floating?_isSome_iff.2 (hw.typed_eq ▸ hv)
      groups := fun s hs => (hy.isActiveVariable hs).2 }

end Database

end Metamath
