import Metamath.Proofs.Database.Stability
import Metamath.Proofs.Unification

/-!
# When an assertion applies

`Database.Applies` says what one application of an assertion is, without an order in which its
hypotheses are matched: one substitution for the mandatory variables makes every argument the
instance of its hypothesis and keeps disjoint variables apart. `unify` compares an essential
hypothesis with its argument under the bindings found so far. In a closed frame these bind all
variables of the hypothesis, so matching finds the substitution whenever there is one
(`matchHypotheses_complete`), and `unify` succeeds exactly when the assertion applies
(`unify_iff_applies`).
-/

namespace Metamath

variable {db : Database} {a : Assertion} {hs : List Hypothesis} {ls : List Label}
  {args : List Expr} {σ τ : Substitution} {r : Expr}

/-! ## Mandatory variables -/

namespace Database

/-- A database that declarations lead to, whichever of them are refused. -/
def Reachable (db : Database) : Prop :=
  ∃ ds, ({} : Database).attemptAll ds = db

theorem Reachable.wellFormed (hdb : db.Reachable) : db.WellFormed := by
  obtain ⟨ds, rfl⟩ := hdb
  exact wellFormed_attemptAll ds

/-- A variable of the statement of an assertion or of one of its essential hypotheses. -/
def MandatoryIn (db : Database) (a : Assertion) (v : Symbol) : Prop :=
  db.isVariable v ∧ (v ∈ a.expr ∨
    ∃ l e, l ∈ a.hypotheses ∧ db.hypothesis? l = some (.essential l e) ∧ v ∈ e)

/-- A recorded assertion has a closed frame, which binds exactly its mandatory variables. -/
theorem Reachable.exists_framed (hdb : db.Reachable) (ha : a ∈ db.assertions) :
    ∃ hs, db.Framed a hs ∧ ∀ v, v ∈ subjects hs ↔ db.MandatoryIn a v := by
  obtain ⟨ds, rfl⟩ := hdb
  obtain ⟨before, l, kind, e, after, db₀, -, hadd, hlast⟩ :=
    exists_declaration_of_mem ha List.not_mem_nil
  obtain ⟨-, -, hframe, -⟩ := addAssertion_eq_ok_iff.1 hadd
  have hw := wellFormed_attemptAll before
  have he := hw.over_of_addAssertion hadd
  have hw' := wellFormed_attemptAll ds
  have hx₀ := extends_of_declare (d := .assertion l kind e) (map_eq_ok_iff.2 ⟨_, hadd, rfl⟩)
  have hx := hx₀.trans (hlast ▸ extends_attemptAll db₀ after)
  have hf := hx.framed hw' (hw.framed_frame l kind he)
  rw [← hframe] at hf
  refine ⟨_, hf, fun v => ⟨fun hv => ?_, fun hv => hf.mem_subjects_of_mentions hw' (.inl hv)⟩⟩
  obtain ⟨hvar, huse⟩ := mem_mandatoryVariables_iff.1 ((hw.mem_subjects_frame_iff he).1 hv)
  refine ⟨isVariable_iff.2 (hx.vars hvar), ?_⟩
  rcases huse with hexpr | ⟨m, e', hm, hess⟩
  · rw [hframe]
    exact .inl hexpr
  · obtain ⟨m', hm', hrecord⟩ := hf.exists_label (essential_mem_mandatoryHypotheses_iff.2 hm)
    obtain rfl : m = m' := hw'.label_of_hypothesis? hrecord
    exact .inr ⟨m, e', hm', hrecord, hess⟩

end Database

/-! ## Applications -/

namespace Database

/-- What a substitution makes of a hypothesis, found by its label. -/
inductive Fits (db : Database) (σ : Substitution) : Label → Expr → Prop
  | floating {l : Label} {typecode v : Symbol} {f : Expr}
      (record : db.hypothesis? l = some (.floating l typecode v)) (bound : σ.get? v = some f) :
      Fits db σ l (typecode :: f)
  | essential {l : Label} {e : Expr} (record : db.hypothesis? l = some (.essential l e)) :
      Fits db σ l (σ.apply e)

/-- A substitution for the mandatory variables of an assertion that makes its hypotheses the
arguments. -/
structure Matches (db : Database) (a : Assertion) (args : List Expr) (σ : Substitution) : Prop where
  length_eq : args.length = a.hypotheses.length
  domain : ∀ v, (σ.get? v).isSome ↔ db.MandatoryIn a v
  fits : ∀ (i : Nat) l arg, a.hypotheses[i]? = some l → args[i]? = some arg → db.Fits σ l arg

/-- What a substitution puts for a disjoint pair of an assertion has no two variables that are not
declared disjoint. -/
def KeepsApart (db : Database) (a : Assertion) (σ : Substitution) : Prop :=
  ∀ p ∈ a.disjoint, ∀ f g, σ.get? p.x = some f → σ.get? p.y = some g →
    ∀ u ∈ f, ∀ w ∈ g, db.isVariable u → db.isVariable w → db.isDisjoint u w

/-- An assertion applies to arguments with a substitution and gives a conclusion. -/
structure Applies (db : Database) (a : Assertion) (args : List Expr) (σ : Substitution)
    (r : Expr) : Prop extends db.Matches a args σ where
  keepsApart : db.KeepsApart a σ
  conclusion : r = σ.apply a.expr

theorem Framed.disjoint_constants (hw : db.WellFormed) (hf : db.Framed a hs) :
    db.constants.Disjoint (subjects hs) := fun _ hs hv =>
  hw.disjoint_symbols hs (hf.subjects_subset hv)

/-- In a frame what fits a hypothesis is the instance of its expression. -/
theorem Framed.fits_iff (hw : db.WellFormed) (hf : db.Framed a hs) (hσ : σ.Binds (subjects hs))
    {h : Hypothesis} (hh : h ∈ hs) {l : Label} (hl : db.hypothesis? l = some h) {arg : Expr} :
    db.Fits σ l arg ↔ arg = σ.apply h.expr := by
  obtain rfl := hw.label_of_hypothesis? hl
  cases h with
  | floating l typecode v =>
    obtain ⟨f, hv⟩ := hσ.exists_get? (mem_subjects_iff.2 ⟨l, typecode, hh⟩)
    have hc : typecode ∉ subjects hs := hf.disjoint_constants hw (hf.wellScoped.expr_over hh).1
    rw [Hypothesis.expr, hσ.apply_floating hc hv]
    constructor
    · intro hfit
      cases hfit with
      | floating record bound =>
        obtain ⟨-, rfl, rfl⟩ := Hypothesis.floating.inj (Option.some.inj (record.symm.trans hl))
        rw [Option.some.inj (bound.symm.trans hv)]
      | essential record => cases record.symm.trans hl
    · rintro rfl
      exact .floating hl hv
  | essential l e =>
    constructor
    · intro hfit
      cases hfit with
      | floating record bound => cases record.symm.trans hl
      | essential record =>
        obtain ⟨-, rfl⟩ := Hypothesis.essential.inj (Option.some.inj (record.symm.trans hl))
        rfl
    · rintro rfl
      exact .essential hl

/-- A substitution matches when it binds the variables of the frame and the arguments are the
instances of the hypotheses. -/
theorem Framed.matches_iff (hw : db.WellFormed) (hf : db.Framed a hs)
    (hmandatory : ∀ v, v ∈ subjects hs ↔ db.MandatoryIn a v) :
    db.Matches a args σ ↔
      σ.Binds (subjects hs) ∧ args = hs.map fun h => σ.apply h.expr := by
  have hlen : a.hypotheses.length = hs.length := by simpa using congrArg List.length hf.records
  constructor
  · rintro ⟨hargs, hdomain, hfits⟩
    have hσ : σ.Binds (subjects hs) := fun v => (hdomain v).trans (hmandatory v).symm
    refine ⟨hσ, List.ext_getElem (by rw [hargs, hlen, List.length_map]) fun i hi _ => ?_⟩
    have hl := List.getElem?_eq_getElem (hargs ▸ hi)
    obtain ⟨h, hh, hrecord⟩ := hf.hypothesis?_mem (List.mem_of_getElem? hl)
    obtain ⟨_, hhi⟩ := List.getElem?_eq_some_iff.1 (hf.getElem?_eq hl hrecord)
    rw [List.getElem_map, hhi]
    exact (hf.fits_iff hw hσ hh hrecord).1 (hfits i _ _ hl (List.getElem?_eq_getElem hi))
  · rintro ⟨hσ, rfl⟩
    refine ⟨by rw [hlen, List.length_map], fun v => (hσ v).trans (hmandatory v), ?_⟩
    intro i l arg hl harg
    obtain ⟨h, hh, hrecord⟩ := hf.hypothesis?_mem (List.mem_of_getElem? hl)
    rw [List.getElem?_map, hf.getElem?_eq hl hrecord] at harg
    exact (hf.fits_iff hw hσ hh hrecord).2 (Option.some.inj harg).symm

theorem keepsApart_iff :
    db.KeepsApart a σ ↔ ∀ p ∈ a.disjoint, pairViolation? db σ p = none := by
  refine forall₂_congr fun p _ => ?_
  rw [pairViolation?_eq_none_iff]
  cases hx : σ.get? p.x with
  | none => simp
  | some f =>
    cases hy : σ.get? p.y with
    | none => simp
    | some g =>
      simp only [Option.getD_some, isVariable_iff]
      constructor
      · intro h
        exact h f g rfl rfl
      · rintro h _ _ ⟨⟩ ⟨⟩
        exact h

end Database

/-! ## Matching finds the substitution -/

/-- Matching goes through when the arguments are the instances of the hypotheses, and what it finds
is the substitution of which they are instances. -/
theorem matchHypotheses_complete {known : List Symbol}
    (hr : ls.map db.hypothesis? = hs.map some) (hw : WellScoped db.constants known hs)
    (hc : db.constants.Disjoint (subjects hs ++ known)) (hτ : τ.Binds (subjects hs ++ known))
    (hσ : σ.Binds known) (hagree : ∀ v ∈ known, σ.get? v = τ.get? v) :
    ∃ ρ, matchHypotheses db σ ls (hs.map fun h => τ.apply h.expr) = .ok ρ ∧ ρ.get? = τ.get? := by
  induction hs generalizing known ls σ with
  | nil =>
    obtain rfl : ls = [] := by simpa using hr
    refine ⟨σ, rfl, funext fun v => ?_⟩
    by_cases hv : v ∈ known
    · exact hagree v hv
    · rw [hσ.get?_eq_none hv, hτ.get?_eq_none hv]
  | cons h₀ hs ih =>
    obtain ⟨l, ls, rfl, hl, hr'⟩ := List.map_eq_cons_iff.1 hr
    simp only [List.map_cons, matchHypotheses_cons_eq_ok_iff hl]
    cases h₀ with
    | floating l' typecode v =>
      have hmem : ∀ w, w ∈ subjects hs ++ v :: known ↔ w ∈ v :: subjects hs ++ known :=
        fun w => List.perm_middle.mem_iff
      rw [subjects_floating] at hτ hc
      obtain ⟨f, hv⟩ := hτ.exists_get? List.mem_cons_self
      have hagree' : ∀ w ∈ v :: known, (σ.bind v f).get? w = τ.get? w := by
        intro w hw
        by_cases hwv : w = v
        · rw [hwv, Substitution.get?_bind_self, hv]
        · rw [σ.get?_bind_of_ne f hwv, hagree w ((List.mem_cons.1 hw).resolve_left hwv)]
      obtain ⟨ρ, hm, hρ⟩ := ih hr' hw.2 (fun w hw₁ hw₂ => hc hw₁ ((hmem w).1 hw₂))
        (fun w => (hτ w).trans (hmem w).symm) (hσ.bind v f) hagree'
      have harg := hτ.apply_floating (hc hw.1) hv
      exact ⟨ρ, ⟨_, matchHypothesis_floating_eq_ok_iff.2 ⟨f, harg, rfl⟩, hm⟩, hρ⟩
    | essential l' e =>
      rw [subjects_essential] at hτ hc
      -- the hypothesis uses known variables only, on which the two substitutions agree
      have happly : σ.apply e = τ.apply e := by
        refine Substitution.apply_congr fun s hs => ?_
        rcases hw.1.mem hs with hs | hs
        · rw [hσ.get?_eq_none fun hk => hc hs (List.mem_append_right _ hk), hτ.get?_eq_none (hc hs)]
        · exact hagree s hs
      obtain ⟨ρ, hm, hρ⟩ := ih hr' hw.2 hc hτ hσ hagree
      exact ⟨ρ, ⟨σ, matchHypothesis_essential_eq_ok_iff.2 ⟨happly, rfl⟩, hm⟩, hρ⟩

namespace Database.Framed

variable (hw : db.WellFormed) (hf : db.Framed a hs)
  (hmandatory : ∀ v, v ∈ subjects hs ↔ db.MandatoryIn a v)

include hw hf hmandatory

/-- Matching finds the substitutions that match. -/
theorem exists_match_iff :
    (args.length = a.hypotheses.length ∧
      ∃ τ, matchHypotheses db [] a.hypotheses args = .ok τ ∧ τ.get? = σ.get?) ↔
        db.Matches a args σ := by
  have hempty : Substitution.Binds [] [] := by
    intro v
    simp [Substitution.get?]
  have hc : db.constants.Disjoint (subjects hs ++ []) := by
    rw [List.append_nil]
    exact hf.disjoint_constants hw
  rw [hf.matches_iff hw hmandatory]
  constructor
  · rintro ⟨hlen, τ, hm, hτ⟩
    obtain ⟨hbinds, -, hargs⟩ := matchHypotheses_sound hm hlen hf.records hf.wellScoped
      (by simpa using hf.nodup_subjects) hc hempty
    rw [List.append_nil] at hbinds
    refine ⟨fun v => congrFun hτ v ▸ hbinds v, hargs.trans (List.map_congr_left fun h _ => ?_)⟩
    exact Substitution.apply_congr fun s _ => congrFun hτ s
  · rintro ⟨hσ, rfl⟩
    refine ⟨by simpa using (congrArg List.length hf.records).symm, ?_⟩
    exact matchHypotheses_complete hf.records hf.wellScoped hc (by rwa [List.append_nil]) hempty
      (List.forall_mem_nil _)

theorem exists_unify_iff :
    (∃ τ, unify db a args = .ok (τ, r) ∧ τ.get? = σ.get?) ↔ db.Applies a args σ r := by
  have hmatch : _ ↔ db.Matches a args σ := hf.exists_match_iff hw hmandatory
  constructor
  · rintro ⟨τ, hu, hτ⟩
    obtain ⟨hlen, hm, hd, rfl⟩ := unify_eq_ok_iff.1 hu
    refine ⟨hmatch.1 ⟨hlen, τ, hm, hτ⟩, ?_, Substitution.apply_congr fun s _ => congrFun hτ s⟩
    rw [← keepsApart_iff, KeepsApart, hτ] at hd
    exact hd
  · rintro ⟨hmatches, hd, rfl⟩
    obtain ⟨hlen, τ, hm, hτ⟩ := hmatch.2 hmatches
    refine ⟨τ, unify_eq_ok_iff.2 ⟨hlen, hm, ?_, ?_⟩, hτ⟩
    · rw [← keepsApart_iff, KeepsApart, hτ]
      exact hd
    · exact Substitution.apply_congr fun s _ => (congrFun hτ s).symm

/-- Arguments match in one way at most. -/
theorem eq_of_matches (h : db.Matches a args σ) (h' : db.Matches a args τ) : σ.get? = τ.get? := by
  obtain ⟨-, ρ, hm, hρ⟩ := (hf.exists_match_iff hw hmandatory).2 h
  obtain ⟨-, ρ', hm', hρ'⟩ := (hf.exists_match_iff hw hmandatory).2 h'
  obtain rfl := Except.ok.inj (hm.symm.trans hm')
  exact hρ.symm.trans hρ'

end Database.Framed

/-- In a reachable database a recorded assertion can be applied to arguments exactly when it applies to
them, with the one substitution that matches the arguments. -/
theorem unify_iff_applies (hdb : db.Reachable) (ha : a ∈ db.assertions) (args : List Expr) :
    (∀ σ r, (∃ τ, unify db a args = .ok (τ, r) ∧ τ.get? = σ.get?) ↔ db.Applies a args σ r) ∧
      ∀ σ τ, db.Matches a args σ → db.Matches a args τ → σ.get? = τ.get? := by
  obtain ⟨hs, hf, hmandatory⟩ := hdb.exists_framed ha
  exact ⟨fun σ r => hf.exists_unify_iff hdb.wellFormed hmandatory,
    fun σ τ h h' => hf.eq_of_matches hdb.wellFormed hmandatory h h'⟩

namespace Sample

/-- The rule of the sample block. -/
def rule : Assertion :=
  ⟨"rule", .axiomatic, ["wx", "wy", "min"], [⟨"x", "y"⟩], ["|-", "x"]⟩

/-- After the block of the rule, its variables are declared disjoint once more. -/
def apart : Database :=
  ({} : Database).attemptAll (declarations ++ [.disjoint ["y", "x"]])

end Sample

/-- The variables may be exchanged and repeated, but not identified. -/
theorem rule_applies :
    Sample.apart.Reachable ∧ Sample.rule ∈ Sample.apart.assertions ∧
      Sample.apart.Applies Sample.rule
        [["wff", "y"], ["wff", "x", "|-", "x"], ["|-", "x", "|-", "x"]]
        [("y", ["x", "|-", "x"]), ("x", ["y"])] ["|-", "y"] ∧
      ∀ σ r, ¬ Sample.apart.Applies Sample.rule [["wff", "x"], ["wff", "x"], ["|-", "x"]] σ r := by
  have hapart : Sample.apart.Reachable := ⟨_, rfl⟩
  have hunify : Sample.rule ∈ Sample.apart.assertions ∧
      (unify Sample.apart Sample.rule
        [["wff", "y"], ["wff", "x", "|-", "x"], ["|-", "x", "|-", "x"]]).toOption =
          some ([("y", ["x", "|-", "x"]), ("x", ["y"])], ["|-", "y"]) ∧
      (unify Sample.apart Sample.rule [["wff", "x"], ["wff", "x"], ["|-", "x"]]).toOption = none := by
    decide +kernel
  obtain ⟨hrule, happlied, hrefused⟩ := hunify
  refine ⟨hapart, hrule, ?_, fun σ r h => ?_⟩
  · exact ((unify_iff_applies hapart hrule _).1 _ _).1
      ⟨_, toOption_eq_some_iff.1 happlied, rfl⟩
  · obtain ⟨τ, hu, -⟩ := ((unify_iff_applies hapart hrule _).1 σ r).2 h
    rw [toOption_eq_some_iff.2 hu] at hrefused
    cases hrefused

end Metamath
