import Metamath.Proofs.Database.WellFormed

/-!
# Histories

Declarations come one after the other and some are refused: `attemptAll` is the database that they
lead to, and `accepted` lists those that took effect. What an accepted declaration does to the open
scopes does not depend on the tables (`stack_of_declare`), so the scopes can be read off the history:
a declaration is active when its scope is still open at the end (`ActiveIn`), and the open scopes
hold exactly what the active declarations put there, in order (`flatMap_scopes_attemptAll`).
`visibility_of_history` says so for each question that one may ask about visibility, and that a block
leaves no trace in any of them.
-/

namespace Metamath

/-! ## Attempts -/

namespace Database

/-- The database after a declaration was tried: a refused one changes nothing. -/
def attempt (db : Database) (d : Declaration) : Database :=
  match db.declare d with
  | .ok db' => db'
  | .error _ => db

/-- The database after declarations were tried one after the other. -/
def attemptAll (db : Database) (ds : List Declaration) : Database :=
  ds.foldl attempt db

/-- Those of some declarations that are accepted when they are tried one after the other. -/
def accepted (db : Database) : List Declaration → List Declaration
  | [] => []
  | d :: ds =>
    match db.declare d with
    | .ok db' => d :: db'.accepted ds
    | .error _ => db.accepted ds

variable {db db' : Database} {d : Declaration} {ds : List Declaration}

theorem attempt_of_ok (h : db.declare d = .ok db') : db.attempt d = db' := by
  rw [attempt, h]

theorem attempt_of_error {e : DeclarationError} (h : db.declare d = .error e) :
    db.attempt d = db := by
  rw [attempt, h]

@[simp] theorem attemptAll_nil (db : Database) : db.attemptAll [] = db := rfl

@[simp] theorem attemptAll_cons (db : Database) (d : Declaration) (ds : List Declaration) :
    db.attemptAll (d :: ds) = (db.attempt d).attemptAll ds := rfl

theorem attemptAll_append (db : Database) (ds ds' : List Declaration) :
    db.attemptAll (ds ++ ds') = (db.attemptAll ds).attemptAll ds' :=
  List.foldl_append

/-- What every accepted declaration preserves is preserved by attempts. -/
theorem attemptAll_induction {P : Database → Prop}
    (hP : ∀ db d db', db.declare d = .ok db' → P db → P db') (h : P db) (ds : List Declaration) :
    P (db.attemptAll ds) := by
  induction ds generalizing db with
  | nil => exact h
  | cons d ds ih =>
    rw [attemptAll_cons]
    cases hd : db.declare d with
    | error e =>
      rw [attempt_of_error hd]
      exact ih h
    | ok db' =>
      rw [attempt_of_ok hd]
      exact ih (hP db d db' hd h)

theorem wellFormed_attemptAll (ds : List Declaration) :
    (({} : Database).attemptAll ds).WellFormed :=
  attemptAll_induction (fun _ _ _ hd hw => hw.declare hd) wellFormed_empty ds

theorem extends_attemptAll (db : Database) (ds : List Declaration) :
    db.Extends (db.attemptAll ds) :=
  attemptAll_induction (P := db.Extends) (fun _ _ _ hd hx => hx.trans (extends_of_declare hd))
    (Extends.refl db) ds

end Database

/-! ## Open scopes -/

/-- A scope with one more declaration in it. -/
def Scope.add (s : Scope) : Declaration → Scope
  | .var v => { s with vars := v :: s.vars }
  | .floating l typecode v =>
    { s with
      hypotheses := s.hypotheses ++ [.floating l typecode v]
      floating := (v, l) :: s.floating }
  | .essential l e => { s with hypotheses := s.hypotheses ++ [.essential l e] }
  | .disjoint vs => { s with disjoint := s.disjoint ++ [sortSymbols vs] }
  | _ => s

/-- The open scopes, the innermost first, after a declaration. -/
def Declaration.onScopes (stack : List Scope) : Declaration → List Scope
  | .openScope => {} :: stack
  | .closeScope => stack.tail
  | d => stack.modifyHead (·.add d)

namespace Database

variable {db db' : Database} {d : Declaration}

/-- The open scopes, from the innermost to the outermost. -/
def stack (db : Database) : List Scope :=
  db.scope :: db.enclosing

theorem scopes_eq_reverse_stack (db : Database) : db.scopes = db.stack.reverse := rfl

theorem mem_scopes_iff {s : Scope} : s ∈ db.scopes ↔ s ∈ db.stack := by
  rw [scopes_eq_reverse_stack, List.mem_reverse]

/-- An accepted declaration changes the open scopes without regard to the tables. -/
theorem stack_of_declare (h : db.declare d = .ok db') : db'.stack = d.onScopes db.stack := by
  cases d with
  | closeScope =>
    obtain ⟨outer, rest, he, rfl⟩ := popScope_eq_ok_iff.1 h
    simp only [Declaration.onScopes, stack, List.tail_cons, he]
  | _ =>
    obtain rfl := effect_of_declare h
    rfl

theorem stack_attemptAll (db : Database) (ds : List Declaration) :
    (db.attemptAll ds).stack = (db.accepted ds).foldl Declaration.onScopes db.stack := by
  induction ds generalizing db with
  | nil => rfl
  | cons d ds ih =>
    rw [attemptAll_cons, accepted]
    cases hd : db.declare d with
    | error e => rw [attempt_of_error hd, ih]
    | ok db' => rw [attempt_of_ok hd, ih, List.foldl_cons, stack_of_declare hd]

end Database

/-! ## Active declarations -/

/-- The innermost of the scopes that are open at the start of a history stays open: at no time have
more scopes been closed than opened. -/
def KeepsOpen (history : List Declaration) : Prop :=
  ∀ early, early <+: history → early.count .closeScope ≤ early.count .openScope

/-- A declaration of a history whose scope, the innermost one when it was made, is open at the end. -/
def ActiveIn (history : List Declaration) (d : Declaration) : Prop :=
  ∃ before later, history = before ++ d :: later ∧ KeepsOpen later

/-- A history that closes each scope it opens, and no other. -/
def Balanced (history : List Declaration) : Prop :=
  KeepsOpen history ∧ history.count .closeScope = history.count .openScope

/-- How many of the scopes that are open at its start a history closes. -/
def closings : List Declaration → Nat
  | [] => 0
  | .openScope :: later => closings later - 1
  | .closeScope :: later => closings later + 1
  | _ :: later => closings later

/-- The active declarations of a history, in order. -/
def active : List Declaration → List Declaration
  | [] => []
  | d :: later => if closings later = 0 then d :: active later else active later

/-- A declaration that neither opens nor closes a scope. -/
def Declaration.IsLocal (d : Declaration) : Prop :=
  d ≠ .openScope ∧ d ≠ .closeScope

theorem Declaration.open_or_close_or_isLocal (d : Declaration) :
    d = .openScope ∨ d = .closeScope ∨ d.IsLocal := by
  by_cases ho : d = .openScope
  · exact .inl ho
  · by_cases hc : d = .closeScope
    · exact .inr (.inl hc)
    · exact .inr (.inr ⟨ho, hc⟩)

theorem closings_of_isLocal {d : Declaration} (h : d.IsLocal) (later : List Declaration) :
    closings (d :: later) = closings later := by
  cases d with
  | openScope => exact absurd rfl h.1
  | closeScope => exact absurd rfl h.2
  | _ => rfl

theorem onScopes_of_isLocal {d : Declaration} (h : d.IsLocal) (s : Scope) (rest : List Scope) :
    d.onScopes (s :: rest) = s.add d :: rest := by
  cases d with
  | openScope => exact absurd rfl h.1
  | closeScope => exact absurd rfl h.2
  | _ => rfl

theorem closings_le_iff {history : List Declaration} {n : Nat} :
    closings history ≤ n ↔
      ∀ early, early <+: history → early.count .closeScope ≤ early.count .openScope + n := by
  -- a part of the history that is not empty starts as the history does
  have hcons : ∀ (d : Declaration) (later : List Declaration) (P : List Declaration → Prop), P [] →
      ((∀ early, early <+: d :: later → P early) ↔ ∀ early, early <+: later → P (d :: early)) := by
    intro d later P hnil
    constructor
    · intro h early he
      exact h _ (List.cons_prefix_cons.2 ⟨rfl, he⟩)
    · intro h early he
      rcases List.prefix_cons_iff.1 he with rfl | ⟨early', rfl, he'⟩
      · exact hnil
      · exact h early' he'
  induction history generalizing n with
  | nil => simp [closings]
  | cons d later ih =>
    rw [hcons d later _ (by simp)]
    rcases d.open_or_close_or_isLocal with rfl | rfl | hd
    · rw [closings, Nat.sub_le_iff_le_add]
      refine ih.trans (forall₂_congr fun early _ => ?_)
      rw [List.count_cons_self, List.count_cons_of_ne (by decide)]
      omega
    · rw [closings]
      cases n with
      | zero =>
        refine iff_of_false (Nat.not_succ_le_zero _) fun h => ?_
        simpa using h [] List.nil_prefix
      | succ n =>
        rw [Nat.succ_le_succ_iff]
        refine ih.trans (forall₂_congr fun early _ => ?_)
        rw [List.count_cons_self, List.count_cons_of_ne (by decide)]
        omega
    · rw [closings_of_isLocal hd]
      refine ih.trans (forall₂_congr fun early _ => ?_)
      rw [List.count_cons_of_ne hd.1, List.count_cons_of_ne hd.2]

theorem keepsOpen_iff {history : List Declaration} : KeepsOpen history ↔ closings history = 0 := by
  rw [← Nat.le_zero, closings_le_iff]
  rfl

instance (history : List Declaration) : Decidable (KeepsOpen history) :=
  decidable_of_iff _ keepsOpen_iff.symm

instance (history : List Declaration) : Decidable (Balanced history) :=
  inferInstanceAs (Decidable (_ ∧ _))

theorem mem_active_iff {history : List Declaration} {d : Declaration} :
    d ∈ active history ↔ ActiveIn history d := by
  induction history with
  | nil => simp [active, ActiveIn]
  | cons d' later ih =>
    have hcons : ActiveIn (d' :: later) d ↔ (d = d' ∧ KeepsOpen later) ∨ ActiveIn later d := by
      constructor
      · rintro ⟨before, later', h, hk⟩
        rcases List.cons_eq_append_iff.1 h with ⟨rfl, h'⟩ | ⟨before', rfl, h'⟩
        · obtain ⟨rfl, rfl⟩ := List.cons.inj h'
          exact .inl ⟨rfl, hk⟩
        · exact .inr ⟨before', later', h', hk⟩
      · rintro (⟨rfl, hk⟩ | ⟨before, later', rfl, hk⟩)
        · exact ⟨[], later, rfl, hk⟩
        · exact ⟨d' :: before, later', rfl, hk⟩
    rw [hcons, keepsOpen_iff, ← ih, active]
    split_ifs with hz <;> simp [hz]

instance (history : List Declaration) (d : Declaration) : Decidable (ActiveIn history d) :=
  decidable_of_iff _ mem_active_iff

/-! ## What the open scopes hold -/

section Holds

variable {β : Type} {f : Scope → List β} {item : Declaration → Option β}

/-- When each declaration puts its item behind those of the innermost scope, the scopes after a history
hold what they held at its start, less those that it closes, and then the items of its active
declarations. -/
theorem flatMap_foldl_onScopes (hnil : f {} = [])
    (hadd : ∀ s d, f (s.add d) = f s ++ (item d).toList) {history : List Declaration}
    {stack : List Scope} (h : closings history < stack.length) :
    (history.foldl Declaration.onScopes stack).reverse.flatMap f =
      (stack.drop (closings history)).reverse.flatMap f ++ (active history).filterMap item := by
  -- a scope is no item: opening and closing one adds nothing
  have hscope : ∀ d, (∀ s : Scope, s.add d = s) → item d = none := by
    intro d hd
    simpa [hd] using hadd {} d
  induction history generalizing stack with
  | nil => simp [closings, active]
  | cons d later ih =>
    rw [List.foldl_cons, active]
    rcases d.open_or_close_or_isLocal with rfl | rfl | hd
    · rw [closings] at h ⊢
      rw [Declaration.onScopes, ih (by rw [List.length_cons]; omega)]
      have hi := hscope .openScope fun _ => rfl
      cases hc : closings later with
      | zero => simp [hnil, hi]
      | succ k => simp
    · rw [closings] at h ⊢
      rw [Declaration.onScopes, ih (by rw [List.length_tail]; omega), List.drop_tail]
      have hi := hscope .closeScope fun _ => rfl
      cases hc : closings later with
      | zero => simp [hi]
      | succ k => simp
    · rw [closings_of_isLocal hd] at h ⊢
      cases stack with
      | nil => exact absurd h (Nat.not_lt_zero _)
      | cons s rest =>
        rw [onScopes_of_isLocal hd, ih (by exact h)]
        cases hc : closings later with
        | zero => cases hi : item d <;> simp [hadd, hi]
        | succ k => simp

end Holds

/-- The variable that a declaration makes active. -/
def Declaration.var? : Declaration → Option Symbol
  | var v => some v
  | _ => none

/-- The group of disjoint variables that a declaration records. -/
def Declaration.group? : Declaration → Option (List Symbol)
  | disjoint vs => some (sortSymbols vs)
  | _ => none

/-- The declaration that records a hypothesis. -/
def Hypothesis.declaration : Hypothesis → Declaration
  | floating l typecode v => .floating l typecode v
  | essential l e => .essential l e

theorem Declaration.var?_eq_some_iff {d : Declaration} {v : Symbol} :
    d.var? = some v ↔ d = .var v := by
  cases d <;> simp [var?]

theorem Declaration.group?_eq_some_iff {d : Declaration} {g : List Symbol} :
    d.group? = some g ↔ ∃ vs, d = .disjoint vs ∧ sortSymbols vs = g := by
  cases d <;> simp [group?]

theorem Declaration.hypothesis?_eq_some_iff {d : Declaration} {h : Hypothesis} :
    d.hypothesis? = some h ↔ d = h.declaration := by
  cases d <;> cases h <;> simp [hypothesis?, Hypothesis.declaration]

theorem Scope.hypotheses_add (s : Scope) (d : Declaration) :
    (s.add d).hypotheses = s.hypotheses ++ d.hypothesis?.toList := by
  cases d <;> simp [Scope.add, Declaration.hypothesis?]

theorem Scope.disjoint_add (s : Scope) (d : Declaration) :
    (s.add d).disjoint = s.disjoint ++ d.group?.toList := by
  cases d <;> simp [Scope.add, Declaration.group?]

namespace Database

/-- No accepted declaration closes the outermost scope. -/
theorem closings_accepted_lt (db : Database) (ds : List Declaration) :
    closings (db.accepted ds) < db.stack.length := by
  induction ds generalizing db with
  | nil => exact Nat.zero_lt_succ _
  | cons d ds ih =>
    rw [accepted]
    cases hd : db.declare d with
    | error e => exact ih db
    | ok db' =>
      have h := ih db'
      rw [stack_of_declare hd] at h
      dsimp only
      rcases d.open_or_close_or_isLocal with rfl | rfl | hl
      · have hpos : 0 < db.stack.length := Nat.zero_lt_succ _
        rw [Declaration.onScopes, List.length_cons] at h
        rw [closings]
        omega
      · rw [Declaration.onScopes, List.length_tail] at h
        rw [closings]
        omega
      · rw [stack, onScopes_of_isLocal hl] at h
        rwa [closings_of_isLocal hl]

/-- The open scopes hold the items of the active declarations, in the order of declaration. -/
theorem flatMap_scopes_attemptAll {β : Type} (f : Scope → List β) (item : Declaration → Option β)
    (hnil : f {} = []) (hadd : ∀ s d, f (s.add d) = f s ++ (item d).toList)
    (ds : List Declaration) :
    (({} : Database).attemptAll ds).scopes.flatMap f =
      (active (({} : Database).accepted ds)).filterMap item := by
  have hc := closings_accepted_lt {} ds
  rw [scopes_eq_reverse_stack, stack_attemptAll, flatMap_foldl_onScopes hnil hadd hc,
    Nat.lt_one_iff.1 hc]
  simp [stack, hnil]

/-- As long as none of them is closed, the open scopes keep what they hold. -/
theorem flatMap_scopes_prefix_attemptAll {β : Type} {f : Scope → List β} {item : Declaration → Option β}
    (hnil : f {} = []) (hadd : ∀ s d, f (s.add d) = f s ++ (item d).toList) {db : Database}
    {ds : List Declaration} (h : KeepsOpen (db.accepted ds)) :
    db.scopes.flatMap f <+: (db.attemptAll ds).scopes.flatMap f := by
  rw [scopes_eq_reverse_stack (db.attemptAll ds), stack_attemptAll,
    flatMap_foldl_onScopes hnil hadd (closings_accepted_lt db ds), keepsOpen_iff.1 h]
  exact List.prefix_append _ _

theorem isDisjoint_iff {db : Database} {x y : Symbol} :
    db.isDisjoint x y ↔
      x ≠ y ∧ ∃ group ∈ db.scopes.flatMap Scope.disjoint, x ∈ group ∧ y ∈ group := by
  simp only [isDisjoint, Bool.and_eq_true, bne_iff_ne, List.any_eq_true, List.contains_iff_mem,
    List.mem_flatMap]
  grind

section Queries

variable (ds : List Declaration)

theorem isActiveVariable_attemptAll_iff {v : Symbol} :
    (({} : Database).attemptAll ds).isActiveVariable v ↔
      ActiveIn (({} : Database).accepted ds) (.var v) := by
  have h := flatMap_scopes_attemptAll (fun s => s.vars.reverse) Declaration.var? rfl
    (by intro s d; cases d <;> simp [Scope.add, Declaration.var?]) ds
  calc (({} : Database).attemptAll ds).isActiveVariable v = true
    _ ↔ v ∈ (({} : Database).attemptAll ds).scopes.flatMap fun s => s.vars.reverse := by
      simp [isActiveVariable]
    _ ↔ v ∈ (active (({} : Database).accepted ds)).filterMap Declaration.var? := by rw [h]
    _ ↔ .var v ∈ active (({} : Database).accepted ds) := by
      simp [List.mem_filterMap, Declaration.var?_eq_some_iff]
    _ ↔ ActiveIn (({} : Database).accepted ds) (.var v) := mem_active_iff

theorem mem_activeHypotheses_attemptAll_iff {h : Hypothesis} :
    h ∈ (({} : Database).attemptAll ds).activeHypotheses ↔
      ActiveIn (({} : Database).accepted ds) h.declaration := by
  have hactive : (({} : Database).attemptAll ds).activeHypotheses =
      (active (({} : Database).accepted ds)).filterMap Declaration.hypothesis? :=
    flatMap_scopes_attemptAll Scope.hypotheses Declaration.hypothesis? rfl Scope.hypotheses_add ds
  rw [hactive, List.mem_filterMap, ← mem_active_iff]
  simp [Declaration.hypothesis?_eq_some_iff]

theorem activeHypothesis?_attemptAll_isSome_iff {l : Label} :
    ((({} : Database).attemptAll ds).activeHypothesis? l).isSome ↔
      (∃ typecode v, ActiveIn (({} : Database).accepted ds) (.floating l typecode v)) ∨
        ∃ e, ActiveIn (({} : Database).accepted ds) (.essential l e) := by
  simp only [activeHypothesis?, List.find?_isSome, beq_iff_eq, mem_activeHypotheses_attemptAll_iff]
  constructor
  · rintro ⟨h, hh, rfl⟩
    cases h with
    | floating l typecode v => exact .inl ⟨typecode, v, hh⟩
    | essential l e => exact .inr ⟨e, hh⟩
  · rintro (⟨typecode, v, hh⟩ | ⟨e, hh⟩)
    · exact ⟨.floating l typecode v, hh, rfl⟩
    · exact ⟨.essential l e, hh, rfl⟩

theorem floating?_attemptAll_eq_none_iff {v : Symbol} :
    (({} : Database).attemptAll ds).floating? v = none ↔
      ¬ ∃ l typecode, ActiveIn (({} : Database).accepted ds) (.floating l typecode v) := by
  rw [floating?_eq_none_iff, (wellFormed_attemptAll ds).typed_eq, mem_subjects_iff]
  exact not_congr (exists₂_congr fun _ _ => mem_activeHypotheses_attemptAll_iff ds)

theorem floating?_attemptAll_eq_some_iff {v : Symbol} {l : Label} :
    (({} : Database).attemptAll ds).floating? v = some l ↔
      ∃ typecode, ActiveIn (({} : Database).accepted ds) (.floating l typecode v) := by
  rw [(wellFormed_attemptAll ds).floating?_eq_some_iff]
  exact exists_congr fun _ => mem_activeHypotheses_attemptAll_iff ds

theorem isDisjoint_attemptAll_iff {x y : Symbol} :
    (({} : Database).attemptAll ds).isDisjoint x y ↔ x ≠ y ∧
      ∃ vs, ActiveIn (({} : Database).accepted ds) (.disjoint vs) ∧ x ∈ vs ∧ y ∈ vs := by
  have h := flatMap_scopes_attemptAll Scope.disjoint Declaration.group? rfl Scope.disjoint_add ds
  have hg : (∃ group ∈ (({} : Database).attemptAll ds).scopes.flatMap Scope.disjoint,
      x ∈ group ∧ y ∈ group) ↔
        ∃ vs, .disjoint vs ∈ active (({} : Database).accepted ds) ∧ x ∈ vs ∧ y ∈ vs := by
    simp only [h, List.mem_filterMap, Declaration.group?_eq_some_iff]
    constructor
    · rintro ⟨group, ⟨d, hd, vs, rfl, rfl⟩, hx, hy⟩
      rw [(sortSymbols_perm vs).mem_iff] at hx hy
      exact ⟨vs, hd, hx, hy⟩
    · rintro ⟨vs, hd, hx, hy⟩
      rw [← (sortSymbols_perm vs).mem_iff] at hx hy
      exact ⟨sortSymbols vs, ⟨_, hd, vs, rfl, rfl⟩, hx, hy⟩
  simp only [← mem_active_iff, ← hg, isDisjoint_iff]

end Queries

/-! ## Blocks -/

/-- Inside a block no constant can be declared. -/
theorem constants_of_declare {db db' : Database} {d : Declaration} (h : db.declare d = .ok db')
    (he : db.enclosing ≠ []) : db'.constants = db.constants := by
  cases d with
  | constant s => exact absurd (addConstant_eq_ok_iff.1 h).1 he
  | _ =>
    obtain rfl := effect_of_declare h
    rfl

/-- Attempts that close none of the scopes below `inner` leave them, and the constants, alone. -/
theorem stack_attemptAll_above (db : Database) (inner : List Scope) {base : List Scope}
    (hbase : base ≠ []) {ds : List Declaration} (hs : db.stack = inner ++ base)
    (hc : closings ds < inner.length) :
    (∃ inner', (db.attemptAll ds).stack = inner' ++ base ∧
      inner'.length + ds.count .closeScope = inner.length + ds.count .openScope) ∧
      (db.attemptAll ds).constants = db.constants := by
  induction ds generalizing db inner with
  | nil => exact ⟨⟨inner, hs, rfl⟩, rfl⟩
  | cons d ds ih =>
    obtain ⟨s, inner, rfl⟩ := List.exists_cons_of_length_pos (Nat.zero_lt_of_lt hc)
    have he : db.enclosing = inner ++ base := (List.cons.inj hs).2
    have hne : db.enclosing ≠ [] := by simp [he, hbase]
    rw [attemptAll_cons]
    rcases d.open_or_close_or_isLocal with rfl | rfl | hl
    · have hd : db.declare .openScope = .ok db.pushScope := rfl
      rw [attempt_of_ok hd, List.count_cons_self, List.count_cons_of_ne (by decide)]
      rw [closings] at hc
      obtain ⟨⟨inner', hs', hlen⟩, hconst⟩ := ih db.pushScope ({} :: s :: inner)
        (congrArg (List.cons ({} : Scope)) hs) (by simp only [List.length_cons] at hc ⊢; omega)
      refine ⟨⟨inner', hs', ?_⟩, hconst⟩
      simp only [List.length_cons] at hlen ⊢
      omega
    · obtain ⟨outer, rest, hr⟩ := List.exists_cons_of_ne_nil hne
      have hd := popScope_eq_ok_iff.2 ⟨outer, rest, hr, rfl⟩
      rw [attempt_of_ok (d := .closeScope) hd, List.count_cons_self,
        List.count_cons_of_ne (by decide)]
      rw [closings] at hc
      obtain ⟨⟨inner', hs', hlen⟩, hconst⟩ := ih { db with scope := outer, enclosing := rest } inner
        (hr.symm.trans he) (by simp only [List.length_cons] at hc; omega)
      refine ⟨⟨inner', hs', ?_⟩, hconst⟩
      simp only [List.length_cons]
      omega
    · rw [closings_of_isLocal hl] at hc
      rw [List.count_cons_of_ne hl.1, List.count_cons_of_ne hl.2]
      cases hd : db.declare d with
      | error e =>
        rw [attempt_of_error hd]
        exact ih db (s :: inner) hs hc
      | ok db' =>
        rw [attempt_of_ok hd, ← constants_of_declare hd hne]
        refine ih db' (s.add d :: inner) ?_ hc
        rw [stack_of_declare hd, hs, List.cons_append, onScopes_of_isLocal hl, List.cons_append]

/-- A block leaves the open scopes and the constants as they were. -/
theorem stack_attemptAll_block (db : Database) {block : List Declaration} (h : Balanced block) :
    (db.attemptAll (.openScope :: block ++ [.closeScope])).stack = db.stack ∧
      (db.attemptAll (.openScope :: block ++ [.closeScope])).constants = db.constants := by
  have hd : db.declare .openScope = .ok db.pushScope := rfl
  have hpush : db.pushScope.stack = [({} : Scope)] ++ db.stack := rfl
  obtain ⟨⟨inner, hs, hlen⟩, hconst⟩ := stack_attemptAll_above db.pushScope _ (by simp [stack])
    hpush (show closings block < _ by simp [keepsOpen_iff.1 h.1])
  -- of the scopes that the block opened, the last one is left, and the closing brace ends it
  obtain ⟨s, rfl⟩ := List.length_eq_one_iff.1 (show inner.length = 1 by
    rw [h.2, List.length_singleton] at hlen
    omega)
  have hpop := popScope_eq_ok_iff.2 ⟨db.scope, db.enclosing, (List.cons.inj hs).2, rfl⟩
  rw [List.cons_append, attemptAll_cons, attempt_of_ok hd, attemptAll_append, attemptAll_cons,
    attempt_of_ok (d := .closeScope) hpop]
  exact ⟨rfl, hconst⟩

/-- Two databases in which the same things are visible. -/
structure SameView (db db' : Database) : Prop where
  isActiveVariable : db'.isActiveVariable = db.isActiveVariable
  activeHypothesis? : db'.activeHypothesis? = db.activeHypothesis?
  floating? : db'.floating? = db.floating?
  isDisjoint : db'.isDisjoint = db.isDisjoint
  constants : db'.constants = db.constants

theorem sameView_of_stack {db db' : Database} (hs : db'.stack = db.stack)
    (hc : db'.constants = db.constants) : db.SameView db' := by
  have hscopes : db'.scopes = db.scopes := congrArg List.reverse hs
  have hactive : db'.activeHypotheses = db.activeHypotheses := by
    rw [activeHypotheses, hscopes, activeHypotheses]
  refine ⟨?_, ?_, ?_, ?_, hc⟩
  · funext v
    rw [isActiveVariable, hscopes, isActiveVariable]
  · funext l
    rw [activeHypothesis?, hactive, activeHypothesis?]
  · funext v
    exact congrArg (List.findSome? fun scope => scope.floating.lookup v) hs
  · funext x y
    rw [isDisjoint, hscopes, isDisjoint]

/-- Whatever declarations were tried, accepted or not, what is visible in the end is what the active
declarations of the history say, and a block shows nothing of what happened in it. -/
theorem visibility_of_history (ds : List Declaration) :
    let db := ({} : Database).attemptAll ds
    let history := ({} : Database).accepted ds
    (∀ x, db.isActiveVariable x ↔ ActiveIn history (.var x)) ∧
    (∀ l, (db.activeHypothesis? l).isSome ↔
      (∃ typecode v, ActiveIn history (.floating l typecode v)) ∨
        ∃ e, ActiveIn history (.essential l e)) ∧
    (∀ v l, db.floating? v = some l ↔
      ∃ typecode, ActiveIn history (.floating l typecode v)) ∧
    (∀ v, db.floating? v = none ↔
      ¬ ∃ l typecode, ActiveIn history (.floating l typecode v)) ∧
    (∀ x y, db.isDisjoint x y ↔
      x ≠ y ∧ ∃ vs, ActiveIn history (.disjoint vs) ∧ x ∈ vs ∧ y ∈ vs) ∧
    ∀ block, Balanced block →
      db.SameView (db.attemptAll (.openScope :: block ++ [.closeScope])) := by
  intro db history
  refine ⟨fun x => isActiveVariable_attemptAll_iff ds,
    fun l => activeHypothesis?_attemptAll_isSome_iff ds,
    fun v l => floating?_attemptAll_eq_some_iff ds,
    fun v => floating?_attemptAll_eq_none_iff ds,
    fun x y => isDisjoint_attemptAll_iff ds, fun block hblock => ?_⟩
  obtain ⟨hs, hc⟩ := stack_attemptAll_block db hblock
  exact sameView_of_stack hs hc

end Database

namespace Sample

/-- A rule in a block, whose variable comes again after the block. Three of the declarations are
refused: the second `wff`, the second closing and the second `wy`. -/
def declarations : List Declaration :=
  [.constant "wff", .constant "|-", .constant "wff", .var "x", .floating "wx" "wff" "x",
    .openScope, .var "y", .floating "wy" "wff" "y", .disjoint ["y", "x"],
    .essential "min" ["|-", "y"], .assertion "rule" .axiomatic ["|-", "x"], .closeScope,
    .closeScope, .var "y", .floating "wy" "wff" "y"]

/-- A block in a block, and a constant that is refused in both. -/
def block : List Declaration :=
  [.var "z", .disjoint ["x", "z"], .openScope, .floating "wz" "wff" "z", .constant "0",
    .closeScope, .essential "maj" ["|-", "x"], .constant "0"]

end Sample

theorem Database.sample_block_leaves_view :
    Balanced Sample.block ∧ (({} : Database).attemptAll Sample.declarations).SameView
      ((({} : Database).attemptAll Sample.declarations).attemptAll
        (.openScope :: Sample.block ++ [.closeScope])) := by
  have hblock : Balanced Sample.block := by decide
  obtain ⟨-, -, -, -, -, h⟩ := visibility_of_history Sample.declarations
  exact ⟨hblock, h Sample.block hblock⟩

/-- The hypothesis of the closed block is gone, the variable declared again after it is there. -/
example :
    let history := ({} : Database).accepted Sample.declarations
    ActiveIn history (.var "y") ∧ ¬ ActiveIn history (.floating "wy" "wff" "y") := by
  decide +kernel

end Metamath
