import Mathlib.Data.List.Induction
import Metamath.Proofs.Replay.Basic

/-!
# Proof trees

A `ProofTree` is a proof in the shape in which it is argued: hypotheses at the leaves, and above them
assertions, each applied to what its subtrees prove (`conclusion?`). A list of labels is accepted as
a complete proof exactly when it lists a tree of the theorem in postorder, and there is never more
than one such tree (`checkNormal_complete_iff_tree`).
-/

namespace Metamath

/-- A proof as a tree of labels. -/
inductive ProofTree where
  | hypothesis (l : Label)
  | assertion (l : Label) (subtrees : List ProofTree)

namespace ProofTree

mutual

/-- The labels of a tree, that of a node after those of its subtrees. -/
def postorder : ProofTree → List Label
  | hypothesis l => [l]
  | assertion l ts => postorders ts ++ [l]

/-- The labels of trees that stand side by side. -/
def postorders : List ProofTree → List Label
  | [] => []
  | t :: ts => postorder t ++ postorders ts

end

mutual

/-- What a tree proves in the proof of a theorem: the theorem itself is no assertion to use. -/
def conclusion? (db : Database) (thm : Assertion) : ProofTree → Option Expr
  | hypothesis l => (db.activeHypothesis? l).map Hypothesis.expr
  | assertion l ts =>
    if l = thm.label then none
    else
      match db.assertion? l, conclusions? db thm ts with
      | some a, some args =>
        match unify db a args with
        | .ok (_, e) => some e
        | .error _ => none
      | _, _ => none

/-- What trees prove that stand side by side. -/
def conclusions? (db : Database) (thm : Assertion) : List ProofTree → Option (List Expr)
  | [] => some []
  | t :: ts =>
    match conclusion? db thm t, conclusions? db thm ts with
    | some e, some es => some (e :: es)
    | _, _ => none

end

variable {db : Database} {thm : Assertion}

theorem postorders_append (ts us : List ProofTree) :
    postorders (ts ++ us) = postorders ts ++ postorders us := by
  induction ts with
  | nil => rfl
  | cons t ts ih => rw [List.cons_append, postorders, postorders, ih, List.append_assoc]

theorem postorders_concat (ts : List ProofTree) (t : ProofTree) :
    postorders (ts ++ [t]) = postorders ts ++ t.postorder := by
  rw [postorders_append, postorders, postorders, List.append_nil]

theorem conclusion?_hypothesis_eq_some_iff {l : Label} {e : Expr} :
    (hypothesis l).conclusion? db thm = some e ↔
      ∃ h, db.activeHypothesis? l = some h ∧ h.expr = e := by
  rw [conclusion?, Option.map_eq_some_iff]

theorem conclusion?_assertion_eq_some_iff {l : Label} {ts : List ProofTree} {e : Expr} :
    (assertion l ts).conclusion? db thm = some e ↔ l ≠ thm.label ∧
      ∃ a args σ, db.assertion? l = some a ∧ conclusions? db thm ts = some args ∧
        unify db a args = .ok (σ, e) := by
  rw [conclusion?]
  split_ifs with hl
  · simp [hl]
  · cases ha : db.assertion? l with
    | none => simp
    | some a =>
      cases hc : conclusions? db thm ts with
      | none => simp
      | some args => rcases hu : unify db a args with err | ⟨σ, e'⟩ <;> simp [hl, hu]

theorem conclusions?_cons_eq_some_iff {t : ProofTree} {ts : List ProofTree} {es : List Expr} :
    conclusions? db thm (t :: ts) = some es ↔ ∃ e es', t.conclusion? db thm = some e ∧
      conclusions? db thm ts = some es' ∧ es = e :: es' := by
  rw [conclusions?]
  cases t.conclusion? db thm <;> cases conclusions? db thm ts <;> simp [eq_comm]

theorem conclusions?_append_eq_some_iff {ts us : List ProofTree} {es : List Expr} :
    conclusions? db thm (ts ++ us) = some es ↔ ∃ es₁ es₂, conclusions? db thm ts = some es₁ ∧
      conclusions? db thm us = some es₂ ∧ es = es₁ ++ es₂ := by
  induction ts generalizing es with
  | nil => simp [conclusions?]
  | cons t ts ih =>
    simp only [List.cons_append, conclusions?_cons_eq_some_iff, ih]
    constructor
    · rintro ⟨e, _, he, ⟨es₁, es₂, h₁, h₂, rfl⟩, rfl⟩
      exact ⟨e :: es₁, es₂, ⟨e, es₁, he, h₁, rfl⟩, h₂, rfl⟩
    · rintro ⟨_, es₂, ⟨e, es₁, he, h₁, rfl⟩, h₂, rfl⟩
      exact ⟨e, es₁ ++ es₂, he, ⟨es₁, es₂, h₁, h₂, rfl⟩, rfl⟩

theorem length_conclusions? {ts : List ProofTree} {es : List Expr}
    (h : conclusions? db thm ts = some es) : es.length = ts.length := by
  induction ts generalizing es with
  | nil =>
    obtain rfl := Option.some.inj h
    rfl
  | cons t ts ih =>
    obtain ⟨e, es', -, h', rfl⟩ := conclusions?_cons_eq_some_iff.1 h
    rw [List.length_cons, List.length_cons, ih h']

/-! ## A tree is replayed to its conclusion -/

mutual

theorem runSteps_postorder (hdb : db.Loaded) (hthm : thm ∈ db.assertions) :
    ∀ (t : ProofTree) {e : Expr}, t.conclusion? db thm = some e → ∀ (taken : Nat) (r : Replay),
      runSteps (Replay.step db thm) taken r t.postorder = (r.push (some e), none)
  | hypothesis l, e, h, taken, r => by
    obtain ⟨h₀, hh, rfl⟩ := conclusion?_hypothesis_eq_some_iff.1 h
    rw [postorder, runSteps, hdb.step_hypothesis hthm r hh]
    rfl
  | assertion l ts, e, h, taken, r => by
    obtain ⟨hl, a, args, σ, ha, hc, hu⟩ := conclusion?_assertion_eq_some_iff.1 h
    rw [postorder, runSteps_append_of_eq (runSteps_postorders hdb hthm ts hc taken r), runSteps,
      hdb.step_assertion _ hl ha,
      (Replay.apply_pushAll_eq_ok_iff (length_of_unify hu)).2 ⟨σ, e, hu, rfl⟩]
    rfl

theorem runSteps_postorders (hdb : db.Loaded) (hthm : thm ∈ db.assertions) :
    ∀ (ts : List ProofTree) {es : List Expr}, conclusions? db thm ts = some es →
      ∀ (taken : Nat) (r : Replay),
        runSteps (Replay.step db thm) taken r (postorders ts) = (r.pushAll es, none)
  | [], es, h, taken, r => by
    obtain rfl := Option.some.inj h
    rfl
  | t :: ts, es, h, taken, r => by
    obtain ⟨e, es', he, hes, rfl⟩ := conclusions?_cons_eq_some_iff.1 h
    rw [postorders, runSteps_append_of_eq (runSteps_postorder hdb hthm t he taken r),
      runSteps_postorders hdb hthm ts hes, Replay.pushAll_cons]

end

/-! ## A complete replay builds trees -/

/-- The replay holds what trees prove that stand side by side. -/
def Built (db : Database) (thm : Assertion) (ts : List ProofTree) (r : Replay) : Prop :=
  ∃ es, conclusions? db thm ts = some es ∧ r = Replay.pushAll {} es

theorem Built.push {ts : List ProofTree} {r : Replay} (h : Built db thm ts r) {t : ProofTree}
    {e : Expr} (ht : t.conclusion? db thm = some e) :
    Built db thm (ts ++ [t]) (r.push (some e)) := by
  obtain ⟨es, hes, rfl⟩ := h
  have hte : conclusions? db thm [t] = some [e] :=
    conclusions?_cons_eq_some_iff.2 ⟨e, [], ht, rfl, rfl⟩
  refine ⟨es ++ [e], conclusions?_append_eq_some_iff.2 ⟨es, [e], hes, hte, rfl⟩, ?_⟩
  rw [Replay.pushAll_append]
  rfl

/-- The trees below the topmost `n` items, and those of these items. -/
theorem Built.split {ts : List ProofTree} {r : Replay} (h : Built db thm ts r) {n : Nat}
    (hn : n ≤ r.stack.length) : ∃ ts₁ ts₂ r₁ es₂, ts = ts₁ ++ ts₂ ∧ Built db thm ts₁ r₁ ∧
      conclusions? db thm ts₂ = some es₂ ∧ es₂.length = n ∧ r = r₁.pushAll es₂ := by
  obtain ⟨es, hes, rfl⟩ := h
  have hlen : n ≤ ts.length := by
    simpa [Replay.pushAll, length_conclusions? hes] using hn
  have hsplit : ts.take (ts.length - n) ++ ts.drop (ts.length - n) = ts := List.take_append_drop _ _
  have hes' := hes
  rw [← hsplit] at hes'
  obtain ⟨es₁, es₂, h₁, h₂, rfl⟩ := conclusions?_append_eq_some_iff.1 hes'
  refine ⟨_, _, Replay.pushAll {} es₁, es₂, hsplit.symm, ⟨es₁, h₁, rfl⟩, h₂, ?_,
    Replay.pushAll_append _ _ _⟩
  rw [length_conclusions? h₂, List.length_drop]
  omega

/-- A step of a complete replay adds its label to the listing of the trees. -/
theorem Built.step {ts : List ProofTree} {r r' : Replay} (h : Built db thm ts r) {l : Label}
    (hs : r.step db thm l = .ok r') (hi : r'.incomplete = false) :
    ∃ ts', Built db thm ts' r' ∧ postorders ts' = postorders ts ++ [l] := by
  obtain ⟨-, rfl⟩ | ⟨-, -, h₀, hh, rfl⟩ | ⟨-, hl, -, a, ha, happ⟩ := Replay.step_cases hs
  · cases hi
  · refine ⟨ts ++ [hypothesis l], h.push ?_, postorders_concat ts _⟩
    exact conclusion?_hypothesis_eq_some_iff.2 ⟨h₀, hh, rfl⟩
  · obtain ⟨hn, -⟩ := Replay.apply_eq_ok_iff.1 happ
    obtain ⟨ts₁, ts₂, r₁, args, rfl, h₁, h₂, hlen, rfl⟩ := h.split hn
    obtain ⟨σ, e, hu, rfl⟩ := (Replay.apply_pushAll_eq_ok_iff hlen).1 happ
    refine ⟨ts₁ ++ [assertion l ts₂], h₁.push ?_, ?_⟩
    · exact conclusion?_assertion_eq_some_iff.2 ⟨hl, a, args, σ, ha, h₂, hu⟩
    · rw [postorders_concat, postorder, postorders_append, List.append_assoc]

theorem Built.run {ts : List ProofTree} {r r' : Replay} (h : Built db thm ts r) {taken : Nat}
    {steps : List Label} (hs : runSteps (Replay.step db thm) taken r steps = (r', none))
    (hi : r'.incomplete = false) :
    ∃ ts', Built db thm ts' r' ∧ postorders ts' = postorders ts ++ steps := by
  induction steps generalizing ts r taken with
  | nil =>
    obtain ⟨rfl, -⟩ := Prod.mk.inj hs
    exact ⟨ts, h, (List.append_nil _).symm⟩
  | cons l steps ih =>
    obtain ⟨r₁, hl, hs⟩ := runSteps_cons_eq_none_iff.1 hs
    -- an unknown step on the way would leave its mark on the last state
    have hi₁ : r₁.incomplete = false := by
      rw [← Bool.not_eq_true]
      intro hi₁
      have hi' : (runSteps (Replay.step db thm) (taken + 1) r₁ steps).1.incomplete :=
        Replay.runSteps_incomplete _ _ hi₁
      rw [hs, hi] at hi'
      cases hi'
    obtain ⟨ts₁, h₁, hts₁⟩ := h.step hl hi₁
    obtain ⟨ts', h', hts'⟩ := ih h₁ hs
    exact ⟨ts', h', by rw [hts', hts₁, List.append_assoc, List.singleton_append]⟩

/-! ## A listing has one tree -/

theorem postorder_ne_nil (t : ProofTree) : t.postorder ≠ [] := by
  cases t <;> simp [postorder]

theorem eq_nil_of_postorders_eq_nil {ts : List ProofTree} (h : postorders ts = []) : ts = [] := by
  cases ts with
  | nil => rfl
  | cons t ts =>
    rw [postorders, List.append_eq_nil_iff] at h
    exact absurd h.1 t.postorder_ne_nil

/-- What the last label of a listing says about the last of the trees. -/
theorem cases_of_postorders_concat {ts : List ProofTree} {es : List Expr} {steps : List Label}
    {l : Label} (hc : conclusions? db thm ts = some es) (h : postorders ts = steps ++ [l]) :
    (∃ ts₀ es₀, ts = ts₀ ++ [hypothesis l] ∧ (db.activeHypothesis? l).isSome ∧
        conclusions? db thm ts₀ = some es₀ ∧ postorders ts₀ = steps) ∨
      ∃ ts₀ us es₀ a, ts = ts₀ ++ [assertion l us] ∧ db.assertion? l = some a ∧
        us.length = a.hypotheses.length ∧ conclusions? db thm (ts₀ ++ us) = some es₀ ∧
        postorders (ts₀ ++ us) = steps := by
  obtain rfl | ⟨ts₀, t, rfl⟩ := ts.eq_nil_or_concat'
  · simp [postorders] at h
  -- the last label is the root of the last tree
  rw [postorders_concat] at h
  obtain ⟨es₁, es₂, h₁, h₂, -⟩ := conclusions?_append_eq_some_iff.1 hc
  obtain ⟨e, -, he, -, -⟩ := conclusions?_cons_eq_some_iff.1 h₂
  cases t with
  | hypothesis l' =>
    obtain ⟨hs, hl⟩ := List.append_inj' h rfl
    obtain rfl := List.singleton_inj.1 hl
    obtain ⟨h₀, hh, -⟩ := conclusion?_hypothesis_eq_some_iff.1 he
    exact .inl ⟨ts₀, es₁, rfl, by rw [hh]; rfl, h₁, hs⟩
  | assertion l' us =>
    rw [postorder, ← List.append_assoc] at h
    obtain ⟨hs, hl⟩ := List.append_inj' h rfl
    obtain rfl := List.singleton_inj.1 hl
    obtain ⟨-, a, args, σ, ha, hus, hu⟩ := conclusion?_assertion_eq_some_iff.1 he
    refine .inr ⟨ts₀, us, es₁ ++ args, a, rfl, ha, ?_, ?_, ?_⟩
    · rw [← length_conclusions? hus, length_of_unify hu]
    · exact conclusions?_append_eq_some_iff.2 ⟨es₁, args, h₁, hus, rfl⟩
    · rw [postorders_append, hs]

/-- Trees that stand side by side are determined by their listing. -/
theorem eq_of_postorders_eq (hdb : db.Loaded) {steps : List Label} {ts us : List ProofTree}
    {es fs : List Expr} (hts : conclusions? db thm ts = some es)
    (hus : conclusions? db thm us = some fs) (ht : postorders ts = steps)
    (hu : postorders us = steps) : ts = us := by
  -- on the listing from its end: the last label opens the last tree on both sides
  induction steps using List.reverseRecOn generalizing ts us es fs with
  | nil => rw [eq_nil_of_postorders_eq_nil ht, eq_nil_of_postorders_eq_nil hu]
  | append_singleton steps l ih =>
    obtain ⟨ts₀, es₀, rfl, hh, hc, hs⟩ | ⟨ts₀, ts₁, es₀, a, rfl, ha, hlen, hc, hs⟩ :=
      cases_of_postorders_concat hts ht
    · obtain ⟨us₀, fs₀, rfl, -, hc', hs'⟩ | ⟨us₀, us₁, fs₀, b, rfl, hb, -, -, -⟩ :=
        cases_of_postorders_concat hus hu
      · rw [ih hc hc' hs hs']
      · rw [hdb.activeHypothesis?_of_assertion? hb] at hh
        cases hh
    · obtain ⟨us₀, fs₀, rfl, hh', -, -⟩ | ⟨us₀, us₁, fs₀, b, rfl, hb, hlen', hc', hs'⟩ :=
        cases_of_postorders_concat hus hu
      · rw [hdb.activeHypothesis?_of_assertion? ha] at hh'
        cases hh'
      · obtain rfl := Option.some.inj (ha.symm.trans hb)
        obtain ⟨rfl, rfl⟩ := List.append_inj' (ih hc hc' hs hs') (hlen.trans hlen'.symm)
        rfl

/-- The tree lists the labels and proves the theorem. -/
def IsProof (db : Database) (thm : Assertion) (steps : List Label) (t : ProofTree) : Prop :=
  t.postorder = steps ∧ t.conclusion? db thm = some thm.expr

theorem IsProof.unique (hdb : db.Loaded) {steps : List Label} {t u : ProofTree}
    (ht : IsProof db thm steps t) (hu : IsProof db thm steps u) : t = u := by
  have hconcl : ∀ {v : ProofTree}, IsProof db thm steps v →
      conclusions? db thm [v] = some [thm.expr] := fun hv =>
    conclusions?_cons_eq_some_iff.2 ⟨thm.expr, [], hv.2, rfl, rfl⟩
  have hlist : ∀ {v : ProofTree}, IsProof db thm steps v → postorders [v] = steps := fun hv => by
    rw [postorders, postorders, List.append_nil, hv.1]
  exact List.singleton_inj.1
    (eq_of_postorders_eq hdb (hconcl ht) (hconcl hu) (hlist ht) (hlist hu))

/-- The trees of a replay with one known item are one tree that proves it. -/
theorem Built.singleton {ts : List ProofTree} {r : Replay} {item : Option Expr}
    (h : Built db thm ts r) (hr : r.stack = [item]) :
    ∃ t e, ts = [t] ∧ item = some e ∧ t.conclusion? db thm = some e := by
  obtain ⟨es, hes, rfl⟩ := h
  obtain ⟨e, rfl⟩ : ∃ e, es = [e] := by
    rw [← List.length_eq_one_iff]
    simpa [Replay.pushAll] using congrArg List.length hr
  obtain ⟨t, rfl⟩ := List.length_eq_one_iff.1 (length_conclusions? hes).symm
  obtain ⟨_, _, he, -, ⟨⟩⟩ := conclusions?_cons_eq_some_iff.1 hes
  exact ⟨t, e, rfl, (List.singleton_inj.1 hr).symm, he⟩

end ProofTree

/-- A list of labels is accepted as a complete proof of a theorem exactly when it lists a proof tree
of the theorem, and then the tree is the only one. -/
theorem checkNormal_complete_iff_tree {db : Database} {thm : Assertion} (hdb : db.Loaded)
    (hthm : thm ∈ db.assertions) (steps : List Label) :
    (checkNormal db thm steps = ⟨false, none⟩ ↔ ∃ t, ProofTree.IsProof db thm steps t) ∧
      ∀ t u, ProofTree.IsProof db thm steps t → ProofTree.IsProof db thm steps u → t = u := by
  refine ⟨⟨fun h => ?_, ?_⟩, fun t u ht hu => ht.unique hdb hu⟩
  · obtain ⟨hrun, hi, item, hstack, hitem⟩ := Replay.verdict_eq_complete_iff.1 h
    have hbuilt : ProofTree.Built db thm [] {} := ⟨[], rfl, rfl⟩
    obtain ⟨ts, hts, hsteps⟩ := hbuilt.run (Prod.ext rfl hrun) hi
    obtain ⟨t, e, rfl, rfl, ht⟩ := hts.singleton hstack
    refine ⟨t, ?_, ht.trans (congrArg some hitem)⟩
    simpa [ProofTree.postorders] using hsteps
  · rintro ⟨t, rfl, ht⟩
    rw [checkNormal, ProofTree.runSteps_postorder hdb hthm t ht]
    exact Replay.verdict_eq_complete_iff.2 ⟨rfl, rfl, some thm.expr, rfl, rfl⟩

theorem twice_has_one_tree : Sample.db.Loaded ∧ Sample.twice ∈ Sample.db.assertions ∧
    ∃! t, ProofTree.IsProof Sample.db Sample.twice
      ["wq", "wp", "wi", "wq", "wq", "wp", "wi", "wp", "wq", "hyp", "once", "again", "once"] t := by
  have hmem : Sample.twice ∈ Sample.db.assertions := by decide
  obtain ⟨hiff, hunique⟩ := checkNormal_complete_iff_tree Sample.loaded hmem
    ["wq", "wp", "wi", "wq", "wq", "wp", "wi", "wp", "wq", "hyp", "once", "again", "once"]
  obtain ⟨t, ht⟩ := hiff.1 (by decide +kernel)
  exact ⟨Sample.loaded, hmem, t, ht, fun u hu => hunique u t hu ht⟩

end Metamath
