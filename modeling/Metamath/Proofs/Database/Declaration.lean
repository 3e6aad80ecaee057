import Mathlib.Data.List.Nodup
import Metamath.Database.Declare
import Metamath.Proofs.Except

/-!
# Declarations

A `Declaration` is one change of a database as data, `Database.declare` carries it out, and
`Database.effect` is what it comes to when it is accepted, whatever the conditions. The lemmas
`…_eq_ok_iff` say exactly when each change is accepted and what it comes to, in terms of membership
in the tables: `labels` (every label in use) and the variables that have an active floating
hypothesis (`typed`). Later proofs cite them and do not open the operations.
-/

namespace Metamath

/-! ## Lookups -/

theorem find?_eq_some_iff_of_unique {α : Type} {p : α → Bool} {l : List α}
    (h : ∀ a ∈ l, ∀ b ∈ l, p a → p b → a = b) {a : α} :
    l.find? p = some a ↔ a ∈ l ∧ p a := by
  constructor
  · intro hf
    exact ⟨List.mem_of_find?_eq_some hf, List.find?_some hf⟩
  · rintro ⟨ha, hp⟩
    have hs : (l.find? p).isSome := List.find?_isSome.2 ⟨a, ha, hp⟩
    obtain ⟨b, hb⟩ := Option.isSome_iff_exists.1 hs
    rw [hb, h b (List.mem_of_find?_eq_some hb) a ha (List.find?_some hb) hp]

theorem find?_key_eq_some_iff {α : Type} {key : α → String} {l : List α}
    (h : (l.map key).Nodup) {k : String} {a : α} :
    l.find? (key · == k) = some a ↔ a ∈ l ∧ key a = k := by
  rw [find?_eq_some_iff_of_unique, beq_iff_eq]
  intro a ha b hb hak hbk
  exact List.inj_on_of_nodup_map h ha hb (by rw [beq_iff_eq.1 hak, beq_iff_eq.1 hbk])

/-! ## Views of the tables -/

/-- The variables that the floating hypotheses of a list are about, in order. -/
def subjects (hs : List Hypothesis) : List Symbol :=
  hs.filterMap Hypothesis.subject?

@[simp] theorem subjects_nil : subjects [] = [] := rfl

@[simp] theorem subjects_floating (l : Label) (typecode v : Symbol) (hs : List Hypothesis) :
    subjects (.floating l typecode v :: hs) = v :: subjects hs := rfl

@[simp] theorem subjects_essential (l : Label) (e : Expr) (hs : List Hypothesis) :
    subjects (.essential l e :: hs) = subjects hs := rfl

@[simp] theorem subjects_append (hs hs' : List Hypothesis) :
    subjects (hs ++ hs') = subjects hs ++ subjects hs' :=
  List.filterMap_append

theorem mem_subjects_iff {v : Symbol} {hs : List Hypothesis} :
    v ∈ subjects hs ↔ ∃ l typecode, .floating l typecode v ∈ hs := by
  rw [subjects, List.mem_filterMap]
  constructor
  · rintro ⟨h, hh, hv⟩
    cases h with
    | floating l typecode u =>
      obtain rfl : u = v := Option.some.inj hv
      exact ⟨l, typecode, hh⟩
    | essential l e => cases hv
  · rintro ⟨l, typecode, hh⟩
    exact ⟨_, hh, rfl⟩

/-- The variables that the floating hypotheses of a list are about, each with the label of its
hypothesis. -/
def entries (hs : List Hypothesis) : List (Symbol × Label) :=
  hs.filterMap fun h => h.subject?.map fun v => (v, h.label)

@[simp] theorem entries_nil : entries [] = [] := rfl

@[simp] theorem entries_floating (l : Label) (typecode v : Symbol) (hs : List Hypothesis) :
    entries (.floating l typecode v :: hs) = (v, l) :: entries hs := rfl

@[simp] theorem entries_essential (l : Label) (e : Expr) (hs : List Hypothesis) :
    entries (.essential l e :: hs) = entries hs := rfl

@[simp] theorem entries_append (hs hs' : List Hypothesis) :
    entries (hs ++ hs') = entries hs ++ entries hs' :=
  List.filterMap_append

theorem mem_entries_iff {hs : List Hypothesis} {v : Symbol} {l : Label} :
    (v, l) ∈ entries hs ↔ ∃ typecode, .floating l typecode v ∈ hs := by
  rw [entries, List.mem_filterMap]
  constructor
  · rintro ⟨h, hh, he⟩
    cases h with
    | floating l' typecode u =>
      obtain ⟨rfl, rfl⟩ := Prod.mk.inj (Option.some.inj he)
      exact ⟨typecode, hh⟩
    | essential l' e => cases he
  · rintro ⟨typecode, hh⟩
    exact ⟨_, hh, rfl⟩

theorem map_fst_entries (hs : List Hypothesis) : (entries hs).map Prod.fst = subjects hs := by
  rw [entries, List.map_filterMap]
  refine List.filterMap_congr fun h _ => ?_
  cases h <;> rfl

/-- A constant followed by constants and variables out of a list. -/
def Expr.Over (constants vars : List Symbol) : Expr → Prop
  | [] => False
  | typecode :: rest => typecode ∈ constants ∧ ∀ s ∈ rest, s ∈ constants ∨ s ∈ vars

theorem Expr.Over.mem {constants vars : List Symbol} {e : Expr} (h : e.Over constants vars)
    {s : Symbol} (hs : s ∈ e) : s ∈ constants ∨ s ∈ vars := by
  cases e with
  | nil => cases hs
  | cons typecode rest =>
    rcases List.mem_cons.1 hs with rfl | hs
    · exact .inl h.1
    · exact h.2 s hs

theorem Expr.Over.mono {constants constants' vars vars' : List Symbol} {e : Expr}
    (h : e.Over constants vars) (hc : constants ⊆ constants')
    (hv : ∀ s ∈ e, s ∈ vars → s ∈ constants' ∨ s ∈ vars') : e.Over constants' vars' := by
  cases e with
  | nil => exact h
  | cons typecode rest =>
    refine ⟨hc h.1, fun s hs => ?_⟩
    rcases h.2 s hs with hs' | hs'
    · exact .inl (hc hs')
    · exact hv s (List.mem_cons_of_mem _ hs) hs'

namespace Database

variable {db db' : Database}

/-- Every label in use. -/
def labels (db : Database) : List Label :=
  db.hypotheses.map Hypothesis.label ++ db.assertions.map Assertion.label

@[simp] theorem isConstant_iff {s : Symbol} : db.isConstant s ↔ s ∈ db.constants := by
  simp [isConstant]

@[simp] theorem isVariable_iff {s : Symbol} : db.isVariable s ↔ s ∈ db.vars := by
  simp [isVariable]

theorem isActiveVariable_iff {v : Symbol} :
    db.isActiveVariable v ↔ v ∈ db.scope.vars ∨ ∃ scope ∈ db.enclosing, v ∈ scope.vars := by
  simp [isActiveVariable, scopes, or_comm]

theorem isLabelUsed_iff {l : Label} : db.isLabelUsed l ↔ l ∈ db.labels := by
  simp [isLabelUsed, labels, hypothesis?, assertion?]

/-- The variables in the tables of the open scopes, in the order of declaration. -/
def typed (db : Database) : List Symbol :=
  db.scopes.flatMap fun s => (s.floating.map Prod.fst).reverse

theorem floating?_isSome_iff {v : Symbol} : (db.floating? v).isSome ↔ v ∈ db.typed := by
  simp [floating?, typed, scopes, List.lookup_isSome_iff, or_comm]

theorem floating?_eq_none_iff {v : Symbol} : db.floating? v = none ↔ v ∉ db.typed := by
  rw [← floating?_isSome_iff, Bool.not_eq_true, Option.isSome_eq_false_iff, Option.isNone_iff_eq_none]

/-! ## What is active after a change -/

@[simp] theorem activeHypotheses_pushScope (db : Database) :
    db.pushScope.activeHypotheses = db.activeHypotheses := by
  simp [pushScope, activeHypotheses, scopes]

@[simp] theorem activeHypotheses_addHypothesis (db : Database) (h : Hypothesis) :
    (db.addHypothesis h).activeHypotheses = db.activeHypotheses ++ [h] := by
  simp [addHypothesis, activeHypotheses, scopes]

/-- The database with another table in its innermost scope. -/
def withTable (db : Database) (table : List (Symbol × Label)) : Database :=
  { db with scope := { db.scope with floating := table } }

@[simp] theorem activeHypotheses_withTable (db : Database) (table : List (Symbol × Label)) :
    (db.withTable table).activeHypotheses = db.activeHypotheses := by
  simp [withTable, activeHypotheses, scopes]

/-- Closing a scope takes its hypotheses off the end of the active ones. -/
theorem activeHypotheses_of_enclosing {outer : Scope} {rest : List Scope}
    (h : db.enclosing = outer :: rest) :
    db.activeHypotheses =
      ({ db with scope := outer, enclosing := rest } : Database).activeHypotheses ++
        db.scope.hypotheses := by
  simp [activeHypotheses, scopes, h]

/-! ## When a change is accepted -/

theorem popScope_eq_ok_iff :
    db.popScope = .ok db' ↔ ∃ outer rest, db.enclosing = outer :: rest ∧
      db' = { db with scope := outer, enclosing := rest } := by
  unfold popScope
  cases h : db.enclosing with
  | nil => simp
  | cons outer rest => simp [eq_comm]

theorem addConstant_eq_ok_iff {s : Symbol} :
    db.addConstant s = .ok db' ↔ db.enclosing = [] ∧ isMathSymbol s ∧ s ∉ db.vars ∧
      s ∉ db.labels ∧ s ∉ db.constants ∧ db' = { db with constants := s :: db.constants } := by
  have hd : ¬ 1 < db.depth ↔ db.enclosing = [] := by
    rw [depth, Nat.lt_add_left_iff_pos, List.length_pos_iff, not_not]
  simp only [addConstant, ite_error_eq_ok_iff, hd, Bool.not_eq_true', Bool.not_eq_false,
    isVariable_iff, isLabelUsed_iff, isConstant_iff, Except.ok.injEq, eq_comm (b := db')]

theorem addVariable_eq_ok_iff {s : Symbol} :
    db.addVariable s = .ok db' ↔ isMathSymbol s ∧ s ∉ db.constants ∧ s ∉ db.labels ∧
      ¬ db.isActiveVariable s ∧
      db' = { db with
        vars := db.vars.insert s
        scope := { db.scope with vars := s :: db.scope.vars } } := by
  simp only [addVariable, ite_error_eq_ok_iff, Bool.not_eq_true', Bool.not_eq_false, isLabelUsed_iff,
    isConstant_iff, Except.ok.injEq, eq_comm (b := db')]

theorem checkLabel_eq_ok_iff {l : Label} :
    db.checkLabel l = .ok () ↔ l ∉ db.constants ∧ l ∉ db.vars ∧ l ∉ db.labels := by
  simp only [checkLabel, ite_error_eq_ok_iff, isVariable_iff, isLabelUsed_iff, isConstant_iff, and_true]

theorem firstUnusable?_eq_none_iff {i : Nat} {e : Expr} :
    db.firstUnusable? i e = none ↔ ∀ s ∈ e, s ∈ db.constants ∨ s ∈ db.typed := by
  induction e generalizing i with
  | nil => simp [firstUnusable?]
  | cons s rest ih =>
    have hs : db.isUsable s ↔ s ∈ db.constants ∨ s ∈ db.typed := by
      rw [isUsable, Bool.or_eq_true, isConstant_iff, floating?_isSome_iff]
    rw [firstUnusable?, List.forall_mem_cons, ← hs, ← ih (i := i + 1)]
    split_ifs with hu <;> simp [hu]

theorem checkExpr_eq_ok_iff (stmt : String) (l : Label) {e : Expr} :
    db.checkExpr stmt l e = .ok () ↔ e.Over db.constants db.typed := by
  cases e with
  | nil => simp [checkExpr, Expr.Over]
  | cons typecode rest =>
    rw [checkExpr, ite_error_eq_ok_iff, Expr.Over, ← firstUnusable?_eq_none_iff (i := 1),
      Bool.not_eq_true', Bool.not_eq_false, isConstant_iff]
    cases db.firstUnusable? 1 rest <;> simp

theorem addFloating_eq_ok_iff {l : Label} {typecode v : Symbol} :
    db.addFloating l typecode v = .ok db' ↔ db.checkLabel l = .ok () ∧ typecode ∈ db.constants ∧
      db.isActiveVariable v ∧ v ∉ db.typed ∧
      db' = (db.addHypothesis (.floating l typecode v)).enterFloating v l := by
  rw [← floating?_eq_none_iff, ← isConstant_iff]
  unfold addFloating
  cases hl : db.checkLabel l <;> cases hc : db.isConstant typecode <;>
    cases hv : db.isActiveVariable v <;> cases hf : db.floating? v <;>
      simp [bind, Except.bind, throw, throwThe, MonadExceptOf.throw, pure, Except.pure,
        eq_comm (b := db')]

theorem addEssential_eq_ok_iff {l : Label} {e : Expr} :
    db.addEssential l e = .ok db' ↔ db.checkLabel l = .ok () ∧ e.Over db.constants db.typed ∧
      db' = db.addHypothesis (.essential l e) := by
  rw [← checkExpr_eq_ok_iff "$e" l]
  unfold addEssential
  cases hl : db.checkLabel l <;> cases he : db.checkExpr "$e" l e <;>
    simp [bind, Except.bind, Except.mapError, pure, Except.pure, eq_comm (b := db')]

theorem checkGroup_eq_ok_iff {before vs : List Symbol} :
    db.checkGroup before vs = .ok () ↔ (∀ v ∈ vs, db.isActiveVariable v) ∧ vs.Nodup ∧
      (∀ v ∈ vs, v ∉ before) ∧ 2 ≤ before.length + vs.length := by
  induction vs generalizing before with
  | nil =>
    rw [checkGroup, ite_error_eq_ok_iff]
    constructor
    · rintro ⟨h, -⟩
      exact ⟨by simp, List.nodup_nil, by simp, Nat.not_lt.1 h⟩
    · rintro ⟨-, -, -, h⟩
      exact ⟨Nat.not_lt.2 h, rfl⟩
  | cons v vs ih =>
    rw [checkGroup, ite_error_eq_ok_iff, ite_error_eq_ok_iff, ih, List.length_cons, List.length_cons]
    simp only [List.nodup_cons, List.mem_cons, not_or, List.contains_iff_mem, Bool.not_eq_true',
      Bool.not_eq_false]
    grind

theorem addDisjoint_eq_ok_iff {vs : List Symbol} :
    db.addDisjoint vs = .ok db' ↔ (∀ v ∈ vs, db.isActiveVariable v) ∧ vs.Nodup ∧ 2 ≤ vs.length ∧
      db' = { db with scope := { db.scope with disjoint := db.scope.disjoint ++ [sortSymbols vs] } } := by
  have hg : db.checkGroup [] vs = .ok () ↔
      (∀ v ∈ vs, db.isActiveVariable v) ∧ vs.Nodup ∧ 2 ≤ vs.length := by
    simp [checkGroup_eq_ok_iff]
  rw [← and_assoc, ← and_assoc, and_assoc (b := vs.Nodup), ← hg]
  unfold addDisjoint
  cases hc : db.checkGroup [] vs <;>
    simp [bind, Except.bind, pure, Except.pure, eq_comm (b := db')]

theorem addAssertion_eq_ok_iff {l : Label} {kind : AssertionKind} {e : Expr} {a : Assertion} :
    db.addAssertion l kind e = .ok (db', a) ↔ db.checkLabel l = .ok () ∧
      e.Over db.constants db.typed ∧ a = db.frame l kind e ∧
      db' = { db with assertions := db.frame l kind e :: db.assertions } := by
  rw [← checkExpr_eq_ok_iff kind.keyword l]
  unfold addAssertion
  cases hl : db.checkLabel l <;> cases he : db.checkExpr kind.keyword l e <;>
    simp [bind, Except.bind, Except.mapError, pure, Except.pure, eq_comm (b := db'),
      eq_comm (b := a), and_comm]

/-! ## Declarations as data -/

end Database

/-- A change of a database. -/
inductive Declaration where
  | openScope
  | closeScope
  | constant (s : Symbol)
  | var (s : Symbol)
  | floating (l : Label) (typecode v : Symbol)
  | essential (l : Label) (e : Expr)
  | disjoint (vs : List Symbol)
  | assertion (l : Label) (kind : AssertionKind) (e : Expr)
deriving DecidableEq, Repr

/-- Carries out a declaration. -/
def Database.declare (db : Database) : Declaration → Except DeclarationError Database
  | .openScope => .ok db.pushScope
  | .closeScope => db.popScope
  | .constant s => db.addConstant s
  | .var s => db.addVariable s
  | .floating l typecode v => db.addFloating l typecode v
  | .essential l e => db.addEssential l e
  | .disjoint vs => db.addDisjoint vs
  | .assertion l kind e => (db.addAssertion l kind e).map Prod.fst

/-- The hypothesis that a declaration records. -/
def Declaration.hypothesis? : Declaration → Option Hypothesis
  | floating l typecode v => some (.floating l typecode v)
  | essential l e => some (.essential l e)
  | _ => none

/-- The assertion that a declaration records. -/
def Declaration.assertion? (db : Database) : Declaration → Option Assertion
  | assertion l kind e => some (db.frame l kind e)
  | _ => none

/-- The database that an accepted declaration leads to. -/
def Database.effect (db : Database) : Declaration → Database
  | .openScope => db.pushScope
  | .closeScope => { db with scope := db.enclosing.headD {}, enclosing := db.enclosing.tail }
  | .constant s => { db with constants := s :: db.constants }
  | .var s =>
    { db with vars := db.vars.insert s, scope := { db.scope with vars := s :: db.scope.vars } }
  | .floating l typecode v => (db.addHypothesis (.floating l typecode v)).enterFloating v l
  | .essential l e => db.addHypothesis (.essential l e)
  | .disjoint vs =>
    { db with scope := { db.scope with disjoint := db.scope.disjoint ++ [sortSymbols vs] } }
  | .assertion l kind e => { db with assertions := db.frame l kind e :: db.assertions }

theorem Database.effect_of_declare {db db' : Database} {d : Declaration}
    (h : db.declare d = .ok db') : db' = db.effect d := by
  cases d with
  | openScope => exact (Except.ok.inj h).symm
  | closeScope =>
    obtain ⟨outer, rest, he, rfl⟩ := popScope_eq_ok_iff.1 h
    simp only [effect, he, List.headD_cons, List.tail_cons]
  | constant s => exact (addConstant_eq_ok_iff.1 h).2.2.2.2.2
  | var s => exact (addVariable_eq_ok_iff.1 h).2.2.2.2
  | floating l typecode v => exact (addFloating_eq_ok_iff.1 h).2.2.2.2
  | essential l e => exact (addEssential_eq_ok_iff.1 h).2.2
  | disjoint vs => exact (addDisjoint_eq_ok_iff.1 h).2.2.2
  | assertion l kind e =>
    obtain ⟨⟨db₁, a⟩, h₁, rfl⟩ := map_eq_ok_iff.1 h
    exact (addAssertion_eq_ok_iff.1 h₁).2.2.2

/-- What an accepted declaration does to the tables. -/
theorem Database.tables_of_declare {db db' : Database} {d : Declaration}
    (h : db.declare d = .ok db') : db.constants ⊆ db'.constants ∧ db.vars ⊆ db'.vars ∧
      db'.hypotheses = d.hypothesis?.toList ++ db.hypotheses ∧
      db'.assertions = (d.assertion? db).toList ++ db.assertions := by
  have hc := List.Subset.refl db.constants
  have hv := List.Subset.refl db.vars
  obtain rfl := effect_of_declare h
  cases d with
  | constant s => exact ⟨List.subset_cons_self s _, hv, rfl, rfl⟩
  | var s => exact ⟨hc, fun _ hv => List.mem_insert_of_mem hv, rfl, rfl⟩
  | _ => exact ⟨hc, hv, rfl, rfl⟩

end Metamath
