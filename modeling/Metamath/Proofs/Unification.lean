import Metamath.Proofs.Database.WellFormed
import Metamath.Proof.Unify

/-!
# Applying an assertion

What a successful `unify` says of an assertion with a closed frame: the substitution binds exactly
the variables of the frame, every argument is the instance of its hypothesis, and variables that
stand for a disjoint pair are declared disjoint (`unify_sound`).
-/

namespace Metamath

/-! ## Substitutions -/

namespace Substitution

variable {σ τ : Substitution}

theorem get?_bind_of_ne (σ : Substitution) {v w : Symbol} (e : Expr) (h : w ≠ v) :
    (σ.bind v e).get? w = σ.get? w := by
  have hvw : (w == v) = false := beq_false_of_ne h
  rw [bind, get?, get?, List.lookup_cons, hvw]
  induction σ with
  | nil => rfl
  | cons b σ ih =>
    obtain ⟨x, f⟩ := b
    by_cases hx : x = v
    · subst hx
      rw [List.filter_cons_of_neg (by simp), List.lookup_cons, hvw]
      exact ih
    · rw [List.filter_cons_of_pos (by simpa using hx), List.lookup_cons, List.lookup_cons]
      cases w == x
      · exact ih
      · rfl

theorem image_of_get? {v : Symbol} {e : Expr} (h : σ.get? v = some e) : σ.image v = e := by
  rw [image, h, Option.getD_some]

theorem image_of_get?_none {s : Symbol} (h : σ.get? s = none) : σ.image s = [s] := by
  rw [image, h, Option.getD_none]

/-- Substitutions that agree on the symbols of an expression give the same instance of it. -/
theorem apply_congr {e : Expr} (h : ∀ s ∈ e, σ.get? s = τ.get? s) : σ.apply e = τ.apply e := by
  refine List.flatMap_congr fun s hs => ?_
  rw [image, image, h s hs]

end Substitution

/-! ## Matching -/

variable {db : Database}

/-- A substitution that binds the variables of a list, and nothing else. -/
def Substitution.Binds (σ : Substitution) (vars : List Symbol) : Prop :=
  ∀ v, (σ.get? v).isSome ↔ v ∈ vars

theorem Substitution.Binds.get?_eq_none {σ : Substitution} {vars : List Symbol} (h : σ.Binds vars)
    {s : Symbol} (hs : s ∉ vars) : σ.get? s = none := by
  rw [← Option.not_isSome_iff_eq_none, h]
  exact hs

theorem Substitution.Binds.exists_get? {σ : Substitution} {vars : List Symbol} (h : σ.Binds vars)
    {v : Symbol} (hv : v ∈ vars) : ∃ f, σ.get? v = some f :=
  Option.isSome_iff_exists.1 ((h v).2 hv)

/-- A floating hypothesis becomes its typecode and what its variable is bound to. -/
theorem Substitution.Binds.apply_floating {σ : Substitution} {vars : List Symbol} (h : σ.Binds vars)
    {typecode v : Symbol} (hc : typecode ∉ vars) {f : Expr} (hv : σ.get? v = some f) :
    σ.apply [typecode, v] = typecode :: f := by
  simp [image_of_get?_none (h.get?_eq_none hc), image_of_get? hv]

theorem Substitution.Binds.bind {σ : Substitution} {vars : List Symbol} (h : σ.Binds vars)
    (v : Symbol) (e : Expr) : (σ.bind v e).Binds (v :: vars) := by
  intro w
  by_cases hw : w = v
  · subst hw
    simp
  · rw [σ.get?_bind_of_ne e hw, h w, List.mem_cons, or_iff_right hw]

theorem matchHypothesis_floating_eq_ok_iff {σ τ : Substitution} {arg : Expr} {l : Label}
    {typecode v : Symbol} : matchHypothesis σ arg (.floating l typecode v) = .ok τ ↔
      ∃ rest, arg = typecode :: rest ∧ τ = σ.bind v rest := by
  cases arg with
  | nil => simp [matchHypothesis]
  | cons s rest =>
    rw [matchHypothesis]
    split_ifs with hs <;> simp [hs, eq_comm (b := τ)]

theorem matchHypothesis_essential_eq_ok_iff {σ τ : Substitution} {arg : Expr} {l : Label}
    {e : Expr} : matchHypothesis σ arg (.essential l e) = .ok τ ↔ σ.apply e = arg ∧ τ = σ := by
  rw [matchHypothesis]
  split_ifs with hs <;> simp [hs, eq_comm (b := τ)]

theorem matchHypotheses_cons_eq_ok_iff {σ τ : Substitution} {l : Label} {ls : List Label}
    {arg : Expr} {args : List Expr} {h₀ : Hypothesis} (hl : db.hypothesis? l = some h₀) :
    matchHypotheses db σ (l :: ls) (arg :: args) = .ok τ ↔
      ∃ σ', matchHypothesis σ arg h₀ = .ok σ' ∧ matchHypotheses db σ' ls args = .ok τ := by
  rw [matchHypotheses, hl]
  dsimp only
  cases matchHypothesis σ arg h₀ <;> simp [bind, Except.bind]

/-- Matching keeps what is bound, binds the variables of the hypotheses, and makes every argument
the instance of its hypothesis under the final substitution. -/
theorem matchHypotheses_sound {known : List Symbol} {hs : List Hypothesis} {ls : List Label}
    {args : List Expr} {σ τ : Substitution} (hm : matchHypotheses db σ ls args = .ok τ)
    (hlen : args.length = ls.length) (hr : ls.map db.hypothesis? = hs.map some)
    (hw : WellScoped db.constants known hs) (hn : (subjects hs ++ known).Nodup)
    (hc : db.constants.Disjoint (subjects hs ++ known)) (hσ : σ.Binds known) :
    τ.Binds (subjects hs ++ known) ∧ (∀ v ∈ known, τ.get? v = σ.get? v) ∧
      args = hs.map fun h => τ.apply h.expr := by
  induction hs generalizing known ls args σ with
  | nil =>
    obtain rfl : ls = [] := by simpa using hr
    obtain rfl : args = [] := by simpa using hlen
    obtain rfl : σ = τ := by simpa [matchHypotheses] using hm
    exact ⟨hσ, fun _ _ => rfl, rfl⟩
  | cons h₀ hs ih =>
    obtain ⟨l, ls, rfl, hl, hr'⟩ := List.map_eq_cons_iff.1 hr
    obtain ⟨arg, args, rfl⟩ := List.exists_cons_of_length_eq_add_one hlen
    obtain ⟨σ', hm₀, hm'⟩ := (matchHypotheses_cons_eq_ok_iff hl).1 hm
    rw [List.length_cons, List.length_cons, Nat.add_right_cancel_iff] at hlen
    cases h₀ with
    | floating l' typecode v =>
      obtain ⟨rest, rfl, rfl⟩ := matchHypothesis_floating_eq_ok_iff.1 hm₀
      have hperm : (subjects hs ++ v :: known).Perm (v :: subjects hs ++ known) := List.perm_middle
      have hmem : ∀ w, w ∈ subjects hs ++ v :: known ↔ w ∈ v :: subjects hs ++ known :=
        fun w => hperm.mem_iff
      rw [subjects_floating] at hn hc
      have hv : v ∉ known := fun hv => (List.nodup_cons.1 hn).1 (List.mem_append_right _ hv)
      obtain ⟨h₁, h₂, rfl⟩ := ih hm' hlen hr' hw.2 (hperm.nodup_iff.2 hn)
        (fun w hw₁ hw₂ => hc hw₁ ((hmem w).1 hw₂)) (hσ.bind v rest)
      have hbinds : τ.Binds (v :: subjects hs ++ known) := fun w => (h₁ w).trans (hmem w)
      refine ⟨hbinds, fun w hw => ?_, ?_⟩
      · rw [h₂ w (List.mem_cons_of_mem _ hw)]
        exact σ.get?_bind_of_ne rest fun he => hv (he ▸ hw)
      · have ht : τ.image typecode = [typecode] :=
          Substitution.image_of_get?_none (hbinds.get?_eq_none (hc hw.1))
        have hi : τ.image v = rest := by
          refine Substitution.image_of_get? ?_
          rw [h₂ v List.mem_cons_self, Substitution.get?_bind_self]
        simp [Hypothesis.expr, ht, hi]
    | essential l' e =>
      -- compared under the bindings so far, which are those of all its variables
      obtain ⟨rfl, rfl⟩ := matchHypothesis_essential_eq_ok_iff.1 hm₀
      rw [subjects_essential] at hn hc
      obtain ⟨h₁, h₂, rfl⟩ := ih hm' hlen hr' hw.2 hn hc hσ
      refine ⟨h₁, h₂, ?_⟩
      rw [List.map_cons, List.cons.injEq]
      refine ⟨Substitution.apply_congr fun s hs => ?_, rfl⟩
      rcases hw.1.mem hs with hs | hs
      · have hk : s ∉ known := fun hk => hc hs (List.mem_append_right _ hk)
        rw [hσ.get?_eq_none hk, h₁.get?_eq_none (hc hs)]
      · exact (h₂ s hs).symm

/-! ## Unification -/

theorem pairViolation?_eq_none_iff {σ : Substitution} {p : DisjointPair} :
    pairViolation? db σ p = none ↔ ∀ u ∈ (σ.get? p.x).getD [], ∀ v ∈ (σ.get? p.y).getD [],
      u ∈ db.vars → v ∈ db.vars → db.isDisjoint u v := by
  simp only [pairViolation?, List.findSome?_eq_none_iff, Database.variablesOf, List.mem_eraseDups,
    List.mem_filter, Database.isVariable_iff, ite_eq_left_iff, reduceCtorEq, imp_false, not_not]
  grind

theorem unify_eq_ok_iff {a : Assertion} {args : List Expr} {σ : Substitution} {e : Expr} :
    unify db a args = .ok (σ, e) ↔ args.length = a.hypotheses.length ∧
      matchHypotheses db [] a.hypotheses args = .ok σ ∧
      (∀ p ∈ a.disjoint, pairViolation? db σ p = none) ∧ e = σ.apply a.expr := by
  rw [← List.findSome?_eq_none_iff]
  unfold unify
  by_cases hlen : args.length = a.hypotheses.length
  · rcases hm : matchHypotheses db [] a.hypotheses args with err | τ
    · simp [hlen, bind, Except.bind]
    · by_cases hτ : τ = σ
      · subst hτ
        cases hd : a.disjoint.findSome? (pairViolation? db τ) <;>
          simp [hd, hlen, bind, Except.bind, throw, throwThe, MonadExceptOf.throw, pure, Except.pure,
            eq_comm (b := e)]
      · cases hd : a.disjoint.findSome? (pairViolation? db τ) <;>
          simp [hd, hτ, hlen, bind, Except.bind, throw, throwThe, MonadExceptOf.throw, pure,
            Except.pure]
  · simp [hlen, bind, Except.bind, throw, throwThe, MonadExceptOf.throw]

theorem length_of_unify {a : Assertion} {args : List Expr} {σ : Substitution} {e : Expr}
    (h : unify db a args = .ok (σ, e)) : args.length = a.hypotheses.length :=
  (unify_eq_ok_iff.1 h).1

/-- A successful application of an assertion with a closed frame. The substitution binds the
variables of the frame, and the arguments are the instances of its hypotheses. -/
theorem unify_sound {a : Assertion} {hs : List Hypothesis} {args : List Expr} {σ : Substitution}
    {e : Expr} (hw : db.WellFormed) (ha : db.Framed a hs) (h : unify db a args = .ok (σ, e)) :
    σ.Binds (subjects hs) ∧ args = hs.map (fun h => σ.apply h.expr) ∧ e = σ.apply a.expr ∧
      ∀ p ∈ a.disjoint, ∀ u ∈ σ.image p.x, ∀ v ∈ σ.image p.y,
        u ∈ db.vars → v ∈ db.vars → db.isDisjoint u v := by
  obtain ⟨hlen, hm, hd, rfl⟩ := unify_eq_ok_iff.1 h
  have hc : db.constants.Disjoint (subjects hs ++ []) := by
    rw [List.append_nil]
    exact fun s hs hv => hw.disjoint_symbols hs (ha.subjects_subset hv)
  obtain ⟨hb, -, hargs⟩ := matchHypotheses_sound hm hlen ha.records ha.wellScoped
    (by simpa using ha.nodup_subjects) hc (by intro v; simp [Substitution.get?])
  rw [List.append_nil] at hb
  refine ⟨hb, hargs, rfl, fun p hp => ?_⟩
  obtain ⟨f, hf⟩ := hb.exists_get? (ha.disjoint_mem p hp).1
  obtain ⟨g, hg⟩ := hb.exists_get? (ha.disjoint_mem p hp).2
  have hp' := pairViolation?_eq_none_iff.1 (hd p hp)
  rw [Substitution.image_of_get? hf, Substitution.image_of_get? hg]
  rwa [hf, hg] at hp'

/-! ## Symbols of instances -/

/-- A substitution instance is over what the images of the variables are over. -/
theorem Expr.Over.apply {σ : Substitution} {e : Expr} {vs ws : List Symbol} (hdb : db.WellFormed)
    (hσ : σ.Binds vs) (hvs : vs ⊆ db.vars)
    (himage : ∀ v ∈ vs, ∀ s ∈ σ.image v, s ∈ db.constants ∨ s ∈ ws) (he : e.Over db.constants vs) :
    (σ.apply e).Over db.constants ws := by
  have hconstant : ∀ c ∈ db.constants, σ.image c = [c] := fun c hc =>
    Substitution.image_of_get?_none
      (hσ.get?_eq_none fun hv => hdb.disjoint_symbols hc (hvs hv))
  cases e with
  | nil => exact he
  | cons c rest =>
    rw [Substitution.apply_cons, hconstant c he.1, List.singleton_append]
    refine ⟨he.1, fun s hs => ?_⟩
    obtain ⟨t, ht, hs⟩ := List.mem_flatMap.1 hs
    rcases he.2 t ht with hc | hv
    · rw [hconstant t hc, List.mem_singleton] at hs
      exact .inl (hs ▸ hc)
    · exact himage t hv s hs

/-- The images of variables are over what the instances of their floating hypotheses are over. -/
theorem mem_of_mem_image {σ : Substitution} {hs : List Hypothesis} {constants ws : List Symbol}
    (h : ∀ h₀ ∈ hs, (σ.apply h₀.expr).Over constants ws) :
    ∀ v ∈ subjects hs, ∀ s ∈ σ.image v, s ∈ constants ∨ s ∈ ws := by
  intro v hv s hs
  obtain ⟨l, typecode, hl⟩ := mem_subjects_iff.1 hv
  refine (h _ hl).mem ?_
  simp [Hypothesis.expr, hs]

end Metamath
