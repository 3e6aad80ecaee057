import Metamath.Proofs.Unification.Complete

/-!
# Applications under a substitution

Substituting in the arguments of an application gives an application of the same assertion, and its
conclusion is the substitution instance of the old one (`unify_map_apply`). The new substitution is
the old one followed by the substitution in the arguments (`Substitution.andThen`): constants stay
what they are, so an instance of an instance is an instance (`Substitution.Binds.apply_andThen`), and
variables that replace a disjoint pair come from variables that did so before.
-/

namespace Metamath

variable {db db' : Database} {a : Assertion} {hs : List Hypothesis} {args : List Expr}
  {σ t : Substitution} {r : Expr}

/-! ## Substitutions one after the other -/

namespace Substitution

/-- What the first substitution puts for a variable is rewritten by the second. -/
def andThen (σ t : Substitution) : Substitution :=
  σ.map fun b => (b.1, t.apply b.2)

theorem get?_andThen (σ t : Substitution) (v : Symbol) :
    (σ.andThen t).get? v = (σ.get? v).map t.apply := by
  induction σ with
  | nil => rfl
  | cons b σ ih =>
    rw [andThen, get?] at ih
    rw [andThen, get?, get?, List.map_cons, List.lookup_cons, List.lookup_cons]
    cases v == b.1 with
    | true => rfl
    | false => exact ih

theorem Binds.andThen {vars : List Symbol} (hσ : σ.Binds vars) (t : Substitution) :
    (σ.andThen t).Binds vars := by
  intro v
  rw [get?_andThen, Option.isSome_map]
  exact hσ v

/-- An instance of an instance is an instance, if the second substitution leaves alone what the first
one does. -/
theorem Binds.apply_andThen {constants vars : List Symbol} (hσ : σ.Binds vars)
    (ht : ∀ c ∈ constants, t.get? c = none) {e : Expr} (he : e.Over constants vars) :
    (σ.andThen t).apply e = t.apply (σ.apply e) := by
  rw [apply, apply, apply, List.flatMap_assoc]
  refine List.flatMap_congr fun s hs => ?_
  by_cases hv : s ∈ vars
  · obtain ⟨f, hf⟩ := hσ.exists_get? hv
    have hf' : (σ.andThen t).get? s = some (t.apply f) := by rw [get?_andThen, hf, Option.map_some]
    rw [image_of_get? hf, image_of_get? hf']
    rfl
  · have hc := (he.mem hs).resolve_right hv
    rw [image_of_get?_none (hσ.get?_eq_none hv),
      image_of_get?_none ((hσ.andThen t).get?_eq_none hv), List.flatMap_singleton,
      image_of_get?_none (ht s hc)]

/-- A variable of an instance stands in what replaces a variable. -/
theorem Binds.exists_of_mem_apply {constants vars : List Symbol} (ht : t.Binds vars)
    (hc : constants.Disjoint vars) {e : Expr} (he : ∀ s ∈ e, s ∈ constants ∨ s ∈ vars) {x : Symbol}
    (hx : x ∈ t.apply e) (hvar : x ∈ vars) : ∃ u ∈ e, u ∈ vars ∧ ∃ f, t.get? u = some f ∧ x ∈ f := by
  obtain ⟨u, hu, hx⟩ := List.mem_flatMap.1 hx
  have huv : u ∈ vars := by
    refine (he u hu).resolve_left fun hconst => ?_
    rw [image_of_get?_none (ht.get?_eq_none (hc hconst)), List.mem_singleton] at hx
    exact hc hconst (hx ▸ hvar)
  obtain ⟨f, hf⟩ := ht.exists_get? huv
  rw [image_of_get? hf] at hx
  exact ⟨u, hu, huv, f, hf, hx⟩

end Substitution

/-! ## Databases with the same tables -/

namespace Database

/-- Databases with the same records, whatever scopes are open in them. -/
structure SameTables (db db' : Database) : Prop where
  isConstant : ∀ s, db'.isConstant s = db.isConstant s
  isVariable : ∀ s, db'.isVariable s = db.isVariable s
  hypothesis? : ∀ l, db'.hypothesis? l = db.hypothesis? l
  assertion? : ∀ l, db'.assertion? l = db.assertion? l

namespace SameTables

variable (h : db.SameTables db')

include h

theorem mem_constants_iff {s : Symbol} : s ∈ db'.constants ↔ s ∈ db.constants := by
  rw [← isConstant_iff, ← isConstant_iff, h.isConstant]

theorem mem_vars_iff {s : Symbol} : s ∈ db'.vars ↔ s ∈ db.vars := by
  rw [← isVariable_iff, ← isVariable_iff, h.isVariable]

theorem framed (hf : db.Framed a hs) : db'.Framed a hs :=
  hf.mono (fun _ => h.mem_constants_iff.2) (fun _ => h.mem_vars_iff.2)
    fun l _ hl => (h.hypothesis? l).trans hl

theorem mandatoryIn_iff {v : Symbol} : db'.MandatoryIn a v ↔ db.MandatoryIn a v := by
  simp only [MandatoryIn, h.isVariable, h.hypothesis?]

end SameTables

end Database

/-! ## Instances of applications -/

namespace Database.Framed

variable (hw : db.WellFormed) (hf : db.Framed a hs) (hsame : db.SameTables db')
  (hargs : ∀ arg ∈ args, arg.Over db.constants db.vars) (ht : t.Binds db.vars)

include hw hf hsame hargs ht

/-- A substitution that carries disjoint variables of one database to disjoint ones of another keeps
apart what was kept apart. -/
theorem keepsApart_andThen
    (hinstances : args = hs.map fun h => σ.apply h.expr)
    (hcarry : ∀ u w f g, db.isDisjoint u w → t.get? u = some f → t.get? w = some g →
      ∀ x ∈ f, ∀ y ∈ g, db'.isVariable x → db'.isVariable y → db'.isDisjoint x y)
    (hapart : db.KeepsApart a σ) : db'.KeepsApart a (σ.andThen t) := by
  have hdeclared : ∀ v ∈ subjects hs, ∀ s ∈ σ.image v, s ∈ db.constants ∨ s ∈ db.vars := by
    refine mem_of_mem_image fun h hh => hargs _ ?_
    rw [hinstances]
    exact List.mem_map_of_mem hh
  -- a variable that now stands for one of the frame replaces one that stood for it before
  have horigin : ∀ {v f' x}, v ∈ subjects hs → (σ.andThen t).get? v = some f' → x ∈ f' →
      db'.isVariable x → ∃ f, σ.get? v = some f ∧ ∃ u ∈ f, db.isVariable u ∧
        ∃ k, t.get? u = some k ∧ x ∈ k := by
    intro v f' x hv hf' hx hvar
    rw [Substitution.get?_andThen, Option.map_eq_some_iff] at hf'
    obtain ⟨f, hσf, rfl⟩ := hf'
    rw [hsame.isVariable, isVariable_iff] at hvar
    have hdecl := hdeclared v hv
    rw [Substitution.image_of_get? hσf] at hdecl
    obtain ⟨u, hu, huv, k, hk, hxk⟩ := ht.exists_of_mem_apply hw.disjoint_symbols hdecl hx hvar
    exact ⟨f, hσf, u, hu, isVariable_iff.2 huv, k, hk, hxk⟩
  intro p hp f' g' hx' hy' x hx y hy hxv hyv
  obtain ⟨f, hf₁, u, hu, huv, k, hk, hxk⟩ := horigin (hf.disjoint_mem p hp).1 hx' hx hxv
  obtain ⟨g, hg₁, w, hw₁, hwv, k', hk', hyk⟩ := horigin (hf.disjoint_mem p hp).2 hy' hy hyv
  exact hcarry u w k k' (hapart p hp f g hf₁ hg₁ u hu w hw₁ huv hwv) hk hk' x hxk y hyk hxv hyv

end Database.Framed

/-- Two reachable databases with the same tables: when an assertion is applied in the first, a
substitution for the declared variables that carries disjoint variables of the first to disjoint
variables of the second turns this into an application in the second. -/
theorem unify_map_apply (hdb : db.Reachable) (hdb' : db'.Reachable) (hsame : db.SameTables db')
    (ha : a ∈ db.assertions) (hargs : ∀ arg ∈ args, arg.Over db.constants db.vars)
    (ht : t.Binds db.vars)
    (hcarry : ∀ u w f g, db.isDisjoint u w → t.get? u = some f → t.get? w = some g →
      ∀ x ∈ f, ∀ y ∈ g, db'.isVariable x → db'.isVariable y → db'.isDisjoint x y)
    (h : unify db a args = .ok (σ, r)) :
    ∃ σ', unify db' a (args.map t.apply) = .ok (σ', t.apply r) ∧
      ∀ v, σ'.get? v = (σ.get? v).map t.apply := by
  have hw := hdb.wellFormed
  have hw' := hdb'.wellFormed
  obtain ⟨hs, hf, hmandatory⟩ := hdb.exists_framed ha
  have hf' := hsame.framed hf
  have hmandatory' : ∀ v, v ∈ subjects hs ↔ db'.MandatoryIn a v := fun v =>
    (hmandatory v).trans hsame.mandatoryIn_iff.symm
  obtain ⟨hmatches, hapart, rfl⟩ := (hf.exists_unify_iff hw hmandatory).1 ⟨σ, h, rfl⟩
  obtain ⟨hσ, hinstances⟩ := (hf.matches_iff hw hmandatory).1 hmatches
  have hfixed : ∀ c ∈ db.constants, t.get? c = none := fun c hc =>
    ht.get?_eq_none (hw.disjoint_symbols hc)
  have hinstances' : args.map t.apply = hs.map fun h => (σ.andThen t).apply h.expr := by
    rw [hinstances, List.map_map]
    refine List.map_congr_left fun h hh => ?_
    exact (hσ.apply_andThen hfixed (hf.wellScoped.expr_over hh)).symm
  have happlies : db'.Applies a (args.map t.apply) (σ.andThen t) (t.apply (σ.apply a.expr)) :=
    { toMatches := (hf'.matches_iff hw' hmandatory').2 ⟨hσ.andThen t, hinstances'⟩
      keepsApart := hf.keepsApart_andThen hw hsame hargs ht hinstances hcarry hapart
      conclusion := (hσ.apply_andThen hfixed hf.expr_over).symm }
  obtain ⟨σ', hu, hσ'⟩ := (hf'.exists_unify_iff hw' hmandatory').2 happlies
  exact ⟨σ', hu, fun v => by rw [hσ', Substitution.get?_andThen]⟩

namespace Sample

/-- The rule of the sample block, with one more variable outside of the block. -/
def records : List Declaration :=
  [.constant "wff", .constant "|-", .var "x", .var "y", .var "z", .floating "wx" "wff" "x",
    .floating "wy" "wff" "y", .floating "wz" "wff" "z", .openScope, .disjoint ["y", "x"],
    .essential "min" ["|-", "y"], .assertion "rule" .axiomatic ["|-", "x"], .closeScope]

/-- A block in which `x` and `y` are disjoint. -/
def here : Database :=
  ({} : Database).attemptAll (records ++ [.openScope, .disjoint ["x", "y"]])

/-- A block in a block, where `y` and `z` are disjoint. -/
def there : Database :=
  ({} : Database).attemptAll (records ++ [.openScope, .disjoint ["z", "y"], .openScope])

/-- Puts `z` for `x`, twice, and nothing for `z`. -/
def shift : Substitution :=
  [("x", ["z", "z"]), ("y", ["y", "|-"]), ("z", [])]

theorem symbols_here : here.constants = ["|-", "wff"] ∧ here.vars = ["z", "y", "x"] := by
  decide +kernel

theorem sameTables : here.SameTables there := by
  have h : there.constants = here.constants ∧ there.vars = here.vars ∧
      there.hypotheses = here.hypotheses ∧ there.assertions = here.assertions := by
    decide +kernel
  obtain ⟨hc, hv, hh, ha⟩ := h
  refine ⟨fun s => ?_, fun s => ?_, fun l => ?_, fun l => ?_⟩
  · rw [Database.isConstant, hc, Database.isConstant]
  · rw [Database.isVariable, hv, Database.isVariable]
  · rw [Database.hypothesis?, hh, Database.hypothesis?]
  · rw [Database.assertion?, ha, Database.assertion?]

theorem shift_binds : shift.Binds here.vars := by
  intro v
  rw [symbols_here.2]
  simp only [shift, Substitution.get?, List.lookup_cons, List.lookup_nil]
  grind

theorem mem_shift_of_get? {v : Symbol} {f : Expr} (h : shift.get? v = some f) : (v, f) ∈ shift := by
  obtain ⟨before, after, heq, -⟩ := List.lookup_eq_some_iff.1 h
  rw [heq]
  exact List.mem_append_right _ List.mem_cons_self

end Sample

/-- There `x` and `y` are not disjoint, but what replaces them is. -/
theorem rule_shifted :
    Sample.there.isDisjoint "x" "y" = false ∧
      (unify Sample.here Sample.rule [["wff", "x"], ["wff", "y", "y"], ["|-", "y", "y"]]).toOption =
        some ([("y", ["y", "y"]), ("x", ["x"])], ["|-", "x"]) ∧
      ∃ σ, unify Sample.there Sample.rule
        [["wff", "z", "z"], ["wff", "y", "|-", "y", "|-"], ["|-", "y", "|-", "y", "|-"]] =
          .ok (σ, ["|-", "z", "z"]) := by
  have h : Sample.there.isDisjoint "x" "y" = false ∧ Sample.rule ∈ Sample.here.assertions ∧
      (unify Sample.here Sample.rule [["wff", "x"], ["wff", "y", "y"], ["|-", "y", "y"]]).toOption =
        some ([("y", ["y", "y"]), ("x", ["x"])], ["|-", "x"]) ∧
      ∀ b ∈ Sample.shift, ∀ c ∈ Sample.shift, Sample.here.isDisjoint b.1 c.1 →
        ∀ x ∈ b.2, ∀ y ∈ c.2, Sample.there.isVariable x ∧ Sample.there.isVariable y →
          Sample.there.isDisjoint x y := by
    decide +kernel
  obtain ⟨hnot, hrule, hunify, hcarry⟩ := h
  have hargs : ∀ arg ∈ ([["wff", "x"], ["wff", "y", "y"], ["|-", "y", "y"]] : List Expr),
      arg.Over Sample.here.constants Sample.here.vars := by
    rw [Sample.symbols_here.1, Sample.symbols_here.2]
    simp [Expr.Over]
  obtain ⟨σ, hu, -⟩ := unify_map_apply ⟨_, rfl⟩ ⟨_, rfl⟩ Sample.sameTables hrule hargs
    Sample.shift_binds (fun u w f g huw hf hg x hx y hy hxv hyv =>
      hcarry (u, f) (Sample.mem_shift_of_get? hf) (w, g) (Sample.mem_shift_of_get? hg) huw
        x hx y hy ⟨hxv, hyv⟩) (toOption_eq_some_iff.1 hunify)
  exact ⟨hnot, hunify, σ, hu⟩

end Metamath
