import Metamath.Proofs.Database.History
import Metamath.Proofs.Replay.Closure

/-!
# Proofs in later databases

Declarations that close none of the open scopes take nothing away: the records stay, what is active
stays active and what is disjoint stays disjoint (`Database.GrowsInto`). They may declare new
variables, but no constant becomes one, and a proof handles only symbols that were declared
(`keptByProofs_over`). So each of its steps does in the later database what it did before
(`GrowsInto.step_eq_ok`, `GrowsInto.compressed_step_eq_ok`), and a proof that was accepted stays
accepted (`check_attemptAll`).
-/

namespace Metamath

variable {db db' : Database} {thm : Assertion}

namespace Database

/-- What the first database records or has in force, the second one does too. -/
structure GrowsInto (db db' : Database) : Prop where
  wellFormed : db'.WellFormed
  tables : db.Extends db'
  active : db.activeHypotheses ⊆ db'.activeHypotheses
  disjoint : ∀ {x y}, db.isDisjoint x y → db'.isDisjoint x y

theorem WellFormed.growsInto_attemptAll (hdb : db.WellFormed) {ds : List Declaration}
    (h : KeepsOpen (db.accepted ds)) : db.GrowsInto (db.attemptAll ds) where
  wellFormed := attemptAll_induction (fun _ _ _ hd hw => hw.declare hd) hdb ds
  tables := extends_attemptAll db ds
  active := (flatMap_scopes_prefix_attemptAll rfl Scope.hypotheses_add h).subset
  disjoint := by
    intro x y hxy
    obtain ⟨hne, group, hg, hx, hy⟩ := isDisjoint_iff.1 hxy
    have hg' := (flatMap_scopes_prefix_attemptAll rfl Scope.disjoint_add h).subset hg
    exact isDisjoint_iff.2 ⟨hne, group, hg', hx, hy⟩

namespace GrowsInto

theorem activeHypothesis?_eq (hg : db.GrowsInto db') {l : Label} {h₀ : Hypothesis}
    (h : db.activeHypothesis? l = some h₀) : db'.activeHypothesis? l = some h₀ := by
  refine hg.wellFormed.activeHypothesis?_eq_some_iff.2
    ⟨hg.active (List.mem_of_find?_eq_some h), ?_⟩
  simpa using List.find?_some h

/-- A symbol that was declared is a variable later only if it was one. -/
theorem mem_vars (hg : db.GrowsInto db') {s : Symbol} (hs : s ∈ db.constants ∨ s ∈ db.vars)
    (hv : s ∈ db'.vars) : s ∈ db.vars :=
  hs.resolve_left fun hc => hg.wellFormed.disjoint_symbols (hg.tables.constants hc) hv

end GrowsInto

end Database

open Database (GrowsInto)

/-! ## Symbols of a proof -/

/-- What a successful application gives is over the constants and variables that its arguments are
over. -/
theorem over_of_unify (hdb : db.WellFormed) {a : Assertion} (ha : a ∈ db.assertions)
    {args : List Expr} {σ : Substitution} {e : Expr} {vs : List Symbol}
    (hargs : ∀ arg ∈ args, arg.Over db.constants vs) (h : unify db a args = .ok (σ, e)) :
    e.Over db.constants vs := by
  obtain ⟨hs, hf⟩ := hdb.framed a ha
  obtain ⟨hσ, rfl, rfl, -⟩ := unify_sound hdb hf h
  exact hf.expr_over.apply hdb hσ hf.subjects_subset
    (mem_of_mem_image fun h hh => hargs _ (List.mem_map_of_mem hh))

/-- Proofs handle declared symbols only. -/
theorem keptByProofs_over (hdb : db.WellFormed) (hthm : thm ∈ db.assertions) :
    KeptByProofs db thm (Expr.Over db.constants db.vars) where
  active := by
    intro h hh
    exact (hdb.wellScoped.expr_over hh).mono (List.Subset.refl _)
      fun s _ hs => .inr (hdb.subjects_active_subset hs)
  mandatory := by
    intro l hl h hh
    obtain ⟨hs, hf⟩ := hdb.framed thm hthm
    obtain ⟨h', hh', he⟩ := hf.hypothesis?_mem hl
    obtain rfl := Option.some.inj (he.symm.trans hh)
    exact (hf.wellScoped.expr_over hh').mono (List.Subset.refl _)
      fun s _ hs => .inr (hf.subjects_subset hs)
  apply := fun _ ha _ _ _ _ hargs hu => over_of_unify hdb ha hargs hu

/-! ## Steps in a later database -/

theorem matchHypotheses_of_records
    (hr : ∀ l h, db.hypothesis? l = some h → db'.hypothesis? l = some h) {ls : List Label}
    {args : List Expr} {σ τ : Substitution} (h : matchHypotheses db σ ls args = .ok τ) :
    matchHypotheses db' σ ls args = .ok τ := by
  induction ls generalizing args σ with
  | nil => exact h
  | cons l ls ih =>
    cases args with
    | nil => exact h
    | cons arg args =>
      cases hl : db.hypothesis? l with
      | none => rw [matchHypotheses, hl] at h; cases h
      | some h₀ =>
        obtain ⟨σ', hm, h'⟩ := (matchHypotheses_cons_eq_ok_iff hl).1 h
        exact (matchHypotheses_cons_eq_ok_iff (hr l h₀ hl)).2 ⟨σ', hm, ih h'⟩

namespace Database.GrowsInto

variable (hg : db.GrowsInto db') (hdb : db.WellFormed)

include hg hdb

theorem unify_eq_ok {a : Assertion} (ha : a ∈ db.assertions) {args : List Expr} {σ : Substitution}
    {e : Expr} (hargs : ∀ arg ∈ args, arg.Over db.constants db.vars)
    (h : unify db a args = .ok (σ, e)) : unify db' a args = .ok (σ, e) := by
  obtain ⟨hs, hf⟩ := hdb.framed a ha
  obtain ⟨hlen, hm, hd, he⟩ := unify_eq_ok_iff.1 h
  have hm' := matchHypotheses_of_records (fun l h₀ => hg.tables.hypothesis?_eq hg.wellFormed) hm
  have hdeclared : ∀ v ∈ subjects hs, ∀ u ∈ σ.image v, u ∈ db.constants ∨ u ∈ db.vars := by
    obtain ⟨-, rfl, -, -⟩ := unify_sound hdb hf h
    exact mem_of_mem_image fun h₀ hh => hargs _ (List.mem_map_of_mem hh)
  -- so a variable that replaces one of the frame was a variable before
  have hvar : ∀ v ∈ subjects hs, ∀ u ∈ (σ.get? v).getD [], u ∈ db'.vars → u ∈ db.vars := by
    intro v hv u hu hu'
    refine hg.mem_vars (hdeclared v hv u ?_) hu'
    cases hσ : σ.get? v with
    | none => rw [hσ] at hu; cases hu
    | some f => rwa [Substitution.image_of_get? hσ, ← Option.getD_some (a := f) (b := []), ← hσ]
  refine unify_eq_ok_iff.2 ⟨hlen, hm', fun p hp => ?_, he⟩
  obtain ⟨hx, hy⟩ := hf.disjoint_mem p hp
  have hpair := pairViolation?_eq_none_iff.1 (hd p hp)
  refine pairViolation?_eq_none_iff.2 fun u hu v hv hu' hv' => hg.disjoint ?_
  exact hpair u hu v hv (hvar p.x hx u hu hu') (hvar p.y hy v hv hv')

theorem apply_eq_ok {a : Assertion} (ha : a ∈ db.assertions) {r r' : Replay}
    (hr : Known (Expr.Over db.constants db.vars) r.stack) (h : r.apply db a = .ok r') :
    r.apply db' a = .ok r' := by
  obtain ⟨hn, hunknown | ⟨args, σ, e, hargs, hu, hr'⟩⟩ := Replay.apply_eq_ok_iff.1 h
  · exact Replay.apply_eq_ok_iff.2 ⟨hn, .inl hunknown⟩
  · refine Replay.apply_eq_ok_iff.2 ⟨hn, .inr ⟨args, σ, e, hargs, ?_, hr'⟩⟩
    refine hg.unify_eq_ok hdb ha (fun arg harg => hr arg ?_) hu
    have hmem : some arg ∈ (r.stack.take a.hypotheses.length).reverse :=
      hargs ▸ List.mem_map_of_mem harg
    exact List.take_subset _ _ (List.mem_reverse.1 hmem)

/-- A step that is taken is the same step in the later database. -/
theorem step_eq_ok {r r' : Replay} (hr : Known (Expr.Over db.constants db.vars) r.stack)
    {l : Label} (h : r.step db thm l = .ok r') : r.step db' thm l = .ok r' := by
  obtain ⟨rfl, rfl⟩ | ⟨hu, ht, h₀, hh, rfl⟩ | ⟨hu, ht, -, a, ha, happ⟩ := Replay.step_cases h
  · exact Replay.step_unknown
  · exact Replay.step_of_hypothesis hu ht (hg.activeHypothesis?_eq hh)
  · have ha' := hg.tables.assertion?_eq hg.wellFormed ha
    rw [Replay.step_of_assertion hu ht (hg.wellFormed.activeHypothesis?_of_assertion? ha') ha']
    exact hg.apply_eq_ok hdb (List.mem_of_find?_eq_some ha) hr happ

theorem compressed_step_eq_ok {labels : List Label} {c c' : CompressedReplay}
    (hc : Known (Expr.Over db.constants db.vars) c.replay.stack) {s : CompressedStep}
    (h : c.step db thm labels s = .ok c') : c.step db' thm labels s = .ok c' := by
  cases s with
  | unknown => exact h
  | mark => exact h
  | number n =>
    rw [CompressedReplay.step] at h ⊢
    dsimp only at h ⊢
    split_ifs at h ⊢ with hn
    · split at h
      · rename_i h₀ hh
        obtain ⟨l, hl, hh'⟩ := Option.bind_eq_some_iff.1 hh
        rw [hl, Option.bind_some, hg.tables.hypothesis?_eq hg.wellFormed hh']
        exact h
      · cases h
    · split at h
      · obtain ⟨r, hr, rfl⟩ := map_eq_ok_iff.1 h
        exact map_eq_ok_iff.2 ⟨r, hg.step_eq_ok hdb hc hr, rfl⟩
      · exact h

end Database.GrowsInto

/-! ## Proofs in a later database -/

/-- A proof of a recorded theorem that is accepted, complete or not, is accepted in the same way after
any declarations that close none of the scopes that are open. -/
theorem check_attemptAll (hdb : db.Loaded) (hthm : thm ∈ db.assertions) {ds : List Declaration}
    (hopen : KeepsOpen (db.accepted ds)) :
    (∀ steps b, checkNormal db thm steps = ⟨b, none⟩ →
      checkNormal (db.attemptAll ds) thm steps = ⟨b, none⟩) ∧
    ∀ labels letters b, checkCompressed db thm labels letters = ⟨b, none⟩ →
      checkCompressed (db.attemptAll ds) thm labels letters = ⟨b, none⟩ := by
  have hg := hdb.wellFormed.growsInto_attemptAll hopen
  have hover := keptByProofs_over hdb.wellFormed hthm
  have hempty : Known (Expr.Over db.constants db.vars) [] := fun e he => by cases he
  constructor
  · intro steps b h
    obtain ⟨r, hrun, hend⟩ := checkNormal_eq_accepted_iff.1 h
    refine checkNormal_eq_accepted_iff.2 ⟨r, ?_, hend⟩
    refine runSteps_of_forall (P := fun r => Known _ r.stack) (fun r l r' hr hl => ?_) hempty hrun
    exact ⟨hg.step_eq_ok hdb.wellFormed hr hl, hover.step_known hr hl⟩
  · intro labels letters b h
    obtain ⟨steps, c, hsteps, hrun, hend⟩ := checkCompressed_eq_accepted_iff.1 h
    refine checkCompressed_eq_accepted_iff.2 ⟨steps, c, hsteps, ?_, hend⟩
    refine runSteps_of_forall (P := fun c => Known _ c.replay.stack ∧ Known _ c.saved)
      (fun c s c' hc hs => ?_) ⟨hempty, hempty⟩ hrun
    exact ⟨hg.compressed_step_eq_ok hdb.wellFormed hc.1 hs, hover.compressed_step_known hc.1 hc.2 hs⟩

namespace Sample

/-- A block with a variable and a theorem of its own, and then more of each kind. The second closing
brace and the constant in the block are refused. -/
def laterDeclarations : List Declaration :=
  [.openScope, .var "r", .floating "wr" "wff" "r", .disjoint ["p", "r"], .constant "=",
    .assertion "ax-r" .axiomatic ["|-", "(", "r", "->", "p", ")"], .closeScope, .closeScope,
    .constant "=", .openScope, .var "y", .floating "vy" "setvar" "y", .disjoint ["x", "q", "y"],
    .essential "more" ["|-", "(", "q", "->", "p", ")"],
    .assertion "weq" .provable ["wff", "x", "=", "y"]]

end Sample

/-- In the end one more scope is open, and `more` is a hypothesis in it. -/
theorem twice_stays_accepted :
    KeepsOpen (Sample.db.accepted Sample.laterDeclarations) ∧
    ((Sample.db.attemptAll Sample.laterDeclarations).activeHypothesis? "more").isSome ∧
    checkNormal Sample.db Sample.twice
      ["wq", "wp", "wi", "wq", "wq", "wp", "wi", "wp", "wq", "hyp", "once", "again", "once"] =
        ⟨false, none⟩ ∧
    checkNormal (Sample.db.attemptAll Sample.laterDeclarations) Sample.twice
      ["wq", "wp", "wi", "wq", "wq", "wp", "wi", "wp", "wq", "hyp", "once", "again", "once"] =
        ⟨false, none⟩ ∧
    checkCompressed (Sample.db.attemptAll Sample.laterDeclarations) Sample.twice
      ["wi", "once", "again"] (utf8 "BADZBGABCEFE") = ⟨false, none⟩ ∧
    checkCompressed (Sample.db.attemptAll Sample.laterDeclarations) Sample.twice
      ["wi", "once", "again"] (utf8 "BADZBG?FE") = ⟨true, none⟩ := by
  have hthm : Sample.twice ∈ Sample.db.assertions := by decide
  have hopen : KeepsOpen (Sample.db.accepted Sample.laterDeclarations) := by decide +kernel
  have hnormal : checkNormal Sample.db Sample.twice
      ["wq", "wp", "wi", "wq", "wq", "wp", "wi", "wp", "wq", "hyp", "once", "again", "once"] =
        ⟨false, none⟩ := by decide +kernel
  obtain ⟨h₁, h₂⟩ := check_attemptAll Sample.loaded hthm hopen
  exact ⟨hopen, by decide +kernel, hnormal, h₁ _ _ hnormal, h₂ _ _ _ (by decide +kernel),
    h₂ _ _ _ (by decide +kernel)⟩

end Metamath
