import Metamath.Proofs.Statement.Run
import Metamath.Proofs.Unification

/-!
# Steps of a replay

What one step of a replay can do (`step_cases`, `apply_eq_ok_iff`), how a run over a list of steps
splits (`runSteps_append`), and when a proof is accepted (`verdict_eq_complete_iff`). In a loaded
database a label says what its step does: no label is `?`, and none names both a hypothesis and an
assertion (`Loaded.step_hypothesis`, `Loaded.step_assertion`). Numbers of compressed proofs are such
labels as long as they are not too high (`CompressedReplay.step_cases`, `step_number_of_label`).
-/

namespace Metamath

theorem allKnown?_eq_some_iff {α : Type} {items : List (Option α)} {as : List α} :
    allKnown? items = some as ↔ items = as.map some := by
  induction items generalizing as with
  | nil => cases as <;> simp [allKnown?]
  | cons item items ih =>
    cases item with
    | none => cases as <;> simp [allKnown?]
    | some a =>
      rw [allKnown?, Option.map_eq_some_iff]
      constructor
      · rintro ⟨as', has, rfl⟩
        rw [ih.1 has, List.map_cons]
      · intro h
        cases as with
        | nil => cases h
        | cons b bs =>
          obtain ⟨h₁, h₂⟩ := List.cons.inj h
          exact ⟨bs, ih.2 h₂, by rw [Option.some.inj h₁]⟩

theorem allKnown?_map_some {α : Type} (as : List α) : allKnown? (as.map some) = some as :=
  allKnown?_eq_some_iff.2 rfl

/-! ## Lists of steps -/

section RunSteps

variable {σ α ε : Type} {f : σ → α → Except ε σ}

theorem runSteps_append (taken : Nat) (s : σ) (as bs : List α) :
    runSteps f taken s (as ++ bs) =
      match runSteps f taken s as with
      | (s', none) => runSteps f (taken + as.length) s' bs
      | (s', some failure) => (s', some failure) := by
  induction as generalizing taken s with
  | nil => rfl
  | cons a as ih =>
    rw [List.cons_append, runSteps, runSteps]
    cases f s a with
    | error e => rfl
    | ok s' =>
      dsimp only
      rw [ih, List.length_cons, Nat.add_assoc, Nat.add_comm 1]

/-- A run over a list that has been taken without failure goes on with the rest. -/
theorem runSteps_append_of_eq {taken : Nat} {s s' : σ} {as : List α}
    (h : runSteps f taken s as = (s', none)) (bs : List α) :
    runSteps f taken s (as ++ bs) = runSteps f (taken + as.length) s' bs := by
  rw [runSteps_append, h]

theorem runSteps_append_eq_none_iff {taken : Nat} {s s' : σ} {as bs : List α} :
    runSteps f taken s (as ++ bs) = (s', none) ↔
      ∃ s₁, runSteps f taken s as = (s₁, none) ∧
        runSteps f (taken + as.length) s₁ bs = (s', none) := by
  rw [runSteps_append]
  rcases runSteps f taken s as with ⟨s₁, _ | failure⟩ <;> simp

theorem runSteps_cons_eq_none_iff {taken : Nat} {s s' : σ} {a : α} {as : List α} :
    runSteps f taken s (a :: as) = (s', none) ↔
      ∃ s₁, f s a = .ok s₁ ∧ runSteps f (taken + 1) s₁ as = (s', none) := by
  rw [runSteps]
  cases f s a <;> simp

theorem exists_step_of_runSteps {taken : Nat} {s s' : σ} {as : List α}
    (h : runSteps f taken s as = (s', none)) {a : α} (ha : a ∈ as) : ∃ s₁ s₂, f s₁ a = .ok s₂ := by
  induction as generalizing taken s with
  | nil => cases ha
  | cons b as ih =>
    obtain ⟨s₁, hb, h⟩ := runSteps_cons_eq_none_iff.1 h
    rcases List.mem_cons.1 ha with rfl | ha
    · exact ⟨s, s₁, hb⟩
    · exact ih h ha

theorem exists_error_of_runSteps {taken i : Nat} {s s' : σ} {as : List α} {e : ε}
    (h : runSteps f taken s as = (s', some (i, e))) : ∃ a ∈ as, f s' a = .error e := by
  induction as generalizing taken s with
  | nil => cases h
  | cons a as ih =>
    rw [runSteps] at h
    cases ha : f s a with
    | error e' =>
      rw [ha] at h
      obtain ⟨rfl, he⟩ := Prod.mk.inj h
      obtain ⟨-, rfl⟩ := Prod.mk.inj (Option.some.inj he)
      exact ⟨a, .head _, ha⟩
    | ok s₁ =>
      rw [ha] at h
      obtain ⟨b, hb, he⟩ := ih h
      exact ⟨b, .tail _ hb, he⟩

/-- What every step preserves holds of the last state, whether a step failed or not. -/
theorem runSteps_induction {P : σ → Prop} (hP : ∀ s a s', f s a = .ok s' → P s → P s') {s : σ}
    (h : P s) (taken : Nat) (as : List α) : P (runSteps f taken s as).1 := by
  induction as generalizing taken s with
  | nil => exact h
  | cons a as ih =>
    rw [runSteps]
    cases hs : f s a with
    | error e => exact h
    | ok s' => exact ih (hP s a s' hs h) _

/-- A run without failure is also one of another step function, if that takes the same steps from
every state with a property that the steps preserve. -/
theorem runSteps_of_forall {g : σ → α → Except ε σ} {P : σ → Prop}
    (hfg : ∀ s a s', P s → f s a = .ok s' → g s a = .ok s' ∧ P s') {taken : Nat} {s s' : σ}
    {as : List α} (hs : P s) (h : runSteps f taken s as = (s', none)) :
    runSteps g taken s as = (s', none) := by
  induction as generalizing taken s with
  | nil => exact h
  | cons a as ih =>
    obtain ⟨s₁, hf, h₁⟩ := runSteps_cons_eq_none_iff.1 h
    obtain ⟨hg, hs₁⟩ := hfg s a s₁ hs hf
    exact runSteps_cons_eq_none_iff.2 ⟨s₁, hg, ih hs₁ h₁⟩

end RunSteps

/-! ## One step -/

namespace Replay

variable {db : Database} {thm : Assertion} {r r' : Replay}

/-- Applying an assertion takes one item for each of its hypotheses. -/
theorem apply_eq_ok_iff {a : Assertion} :
    r.apply db a = .ok r' ↔ a.hypotheses.length ≤ r.stack.length ∧
      ((allKnown? (r.stack.take a.hypotheses.length).reverse = none ∧
          r' = { r with stack := none :: r.stack.drop a.hypotheses.length }) ∨
        ∃ args σ e, (r.stack.take a.hypotheses.length).reverse = args.map some ∧
          unify db a args = .ok (σ, e) ∧
          r' = { r with stack := some e :: r.stack.drop a.hypotheses.length }) := by
  simp only [← allKnown?_eq_some_iff]
  unfold apply
  dsimp only
  split_ifs with hn
  · simp [Nat.not_le.2 hn]
  · rw [Nat.not_lt] at hn
    cases hk : allKnown? (r.stack.take a.hypotheses.length).reverse with
    | none => simp [hn, eq_comm (b := r')]
    | some args =>
      rcases hu : unify db a args with e | ⟨σ, e⟩
      · simp [hn, hu]
      · simp [hn, hu, eq_comm (b := r')]

/-- The replay with known items pushed one after the other. -/
def pushAll (r : Replay) (es : List Expr) : Replay :=
  { r with stack := (es.map some).reverse ++ r.stack }

theorem pushAll_cons (r : Replay) (e : Expr) (es : List Expr) :
    r.pushAll (e :: es) = (r.push (some e)).pushAll es := by
  simp [pushAll, push]

theorem pushAll_append (r : Replay) (es fs : List Expr) :
    r.pushAll (es ++ fs) = (r.pushAll es).pushAll fs := by
  simp [pushAll]

/-- An assertion applies to known items on top exactly when it unifies with them. -/
theorem apply_pushAll_eq_ok_iff {a : Assertion} {args : List Expr}
    (hlen : args.length = a.hypotheses.length) :
    (r.pushAll args).apply db a = .ok r' ↔
      ∃ σ e, unify db a args = .ok (σ, e) ∧ r' = r.push (some e) := by
  have hlen' : a.hypotheses.length = ((args.map some).reverse).length := by
    rw [List.length_reverse, List.length_map, hlen]
  have htake : ((r.pushAll args).stack.take a.hypotheses.length).reverse = args.map some := by
    rw [hlen', pushAll, List.take_left, List.reverse_reverse]
  have hdrop : (r.pushAll args).stack.drop a.hypotheses.length = r.stack := by
    rw [hlen', pushAll, List.drop_left]
  rw [apply_eq_ok_iff, htake, hdrop, allKnown?_map_some]
  constructor
  · rintro ⟨-, ⟨⟨⟩, -⟩ | ⟨args', σ, e, hargs, hu, rfl⟩⟩
    obtain rfl := (List.map_inj_right fun _ _ => Option.some.inj).1 hargs
    exact ⟨σ, e, hu, rfl⟩
  · rintro ⟨σ, e, hu, rfl⟩
    refine ⟨?_, .inr ⟨args, σ, e, rfl, hu, rfl⟩⟩
    rw [hlen', pushAll, List.length_append]
    exact Nat.le_add_right _ _

/-- What a step that is taken can be. -/
theorem step_cases {l : Label} (h : r.step db thm l = .ok r') :
    (l = "?" ∧ r' = r.pushUnknown) ∨
      (l ≠ "?" ∧ l ≠ thm.label ∧
        ∃ h₀, db.activeHypothesis? l = some h₀ ∧ r' = r.push (some h₀.expr)) ∨
      (l ≠ "?" ∧ l ≠ thm.label ∧ db.activeHypothesis? l = none ∧
        ∃ a, db.assertion? l = some a ∧ r.apply db a = .ok r') := by
  unfold step at h
  split_ifs at h with hu ht
  · exact .inl ⟨hu, (Except.ok.inj h).symm⟩
  · right
    split at h
    · exact .inl ⟨hu, ht, _, ‹_›, (Except.ok.inj h).symm⟩
    · split at h
      · exact .inr ⟨hu, ht, ‹_›, _, ‹_›, h⟩
      · cases h

theorem step_unknown : r.step db thm "?" = .ok r.pushUnknown := rfl

theorem step_of_hypothesis {l : Label} {h₀ : Hypothesis} (hu : l ≠ "?") (ht : l ≠ thm.label)
    (h : db.activeHypothesis? l = some h₀) : r.step db thm l = .ok (r.push (some h₀.expr)) := by
  rw [step, if_neg hu, if_neg ht, h]

theorem step_of_assertion {l : Label} {a : Assertion} (hu : l ≠ "?") (ht : l ≠ thm.label)
    (h : db.activeHypothesis? l = none) (ha : db.assertion? l = some a) :
    r.step db thm l = r.apply db a := by
  rw [step, if_neg hu, if_neg ht, h, ha]

theorem apply_incomplete {a : Assertion} (h : r.apply db a = .ok r') :
    r'.incomplete = r.incomplete := by
  obtain ⟨-, ⟨-, rfl⟩ | ⟨args, σ, e, -, -, rfl⟩⟩ := apply_eq_ok_iff.1 h <;> rfl

/-- An incomplete replay stays incomplete. -/
theorem step_incomplete {l : Label} (h : r.step db thm l = .ok r') (hi : r.incomplete) :
    r'.incomplete := by
  obtain ⟨-, rfl⟩ | ⟨-, -, h₀, -, rfl⟩ | ⟨-, -, -, a, -, ha⟩ := step_cases h
  · rfl
  · exact hi
  · rw [apply_incomplete ha, hi]

theorem runSteps_incomplete (taken : Nat) (steps : List Label) (hi : r.incomplete) :
    (runSteps (step db thm) taken r steps).1.incomplete :=
  runSteps_induction (P := fun r : Replay => r.incomplete) (fun _ _ _ => step_incomplete) hi taken steps

/-! ## Verdicts -/

theorem verdict_eq_accepted_iff {taken : Nat} {failure : Option (Nat × ProofError)} {b : Bool} :
    r.verdict thm taken failure = ⟨b, none⟩ ↔
      failure = none ∧ r.finish thm = .ok () ∧ r.incomplete = b := by
  cases failure with
  | some failure => simp [verdict]
  | none => cases hf : r.finish thm <;> simp [verdict, hf]

theorem finish_eq_ok_iff : r.finish thm = .ok () ↔
    r.incomplete ∨ ∃ item, r.stack = [item] ∧ item.getD [] = thm.expr := by
  unfold finish
  cases hi : r.incomplete with
  | true => simp
  | false =>
    rcases hs : r.stack with _ | ⟨item, _ | ⟨item', items⟩⟩
    · simp
    · by_cases he : item.getD [] = thm.expr <;> simp [he]
    · simp

/-- A complete replay is accepted when the statement of the theorem is all that is left. -/
theorem verdict_eq_complete_iff {taken : Nat} {failure : Option (Nat × ProofError)} :
    r.verdict thm taken failure = ⟨false, none⟩ ↔
      failure = none ∧ r.incomplete = false ∧
        ∃ item, r.stack = [item] ∧ item.getD [] = thm.expr := by
  rw [verdict_eq_accepted_iff, finish_eq_ok_iff]
  cases r.incomplete <;> simp

end Replay

/-- A proof is accepted when all its steps are taken and nothing is wrong at the end. -/
theorem checkNormal_eq_accepted_iff {db : Database} {thm : Assertion} {steps : List Label}
    {b : Bool} : checkNormal db thm steps = ⟨b, none⟩ ↔
      ∃ r, runSteps (Replay.step db thm) 0 {} steps = (r, none) ∧ r.finish thm = .ok () ∧
        r.incomplete = b := by
  rw [checkNormal]
  rcases runSteps (Replay.step db thm) 0 {} steps with ⟨r, failure⟩
  simp [Replay.verdict_eq_accepted_iff, and_assoc]

theorem checkCompressed_eq_accepted_iff {db : Database} {thm : Assertion} {labels : List Label}
    {letters : Bytes} {b : Bool} : checkCompressed db thm labels letters = ⟨b, none⟩ ↔
      ∃ steps c, decodeLetters letters = .ok steps ∧
        runSteps (CompressedReplay.step db thm labels) 0 {} steps = (c, none) ∧
        c.replay.finish thm = .ok () ∧ c.replay.incomplete = b := by
  rw [checkCompressed]
  cases decodeLetters letters with
  | error e => simp
  | ok steps =>
    dsimp only
    rcases hrun : runSteps (CompressedReplay.step db thm labels) 0 {} steps with ⟨c, failure⟩
    simp [hrun, Replay.verdict_eq_accepted_iff, and_assoc]

/-! ## Loaded databases -/

namespace Database.Loaded

variable {db : Database} {thm : Assertion}

theorem label_ne_unknown (hdb : db.Loaded) {l : Label} (hl : l ∈ db.labels) : l ≠ "?" := by
  rintro rfl
  have := hdb.isLabel _ hl
  revert this
  decide

theorem mem_labels_of_active (hdb : db.Loaded) {l : Label} {h₀ : Hypothesis}
    (h : db.activeHypothesis? l = some h₀) : l ∈ db.labels := by
  obtain ⟨hm, rfl⟩ := hdb.wellFormed.activeHypothesis?_eq_some_iff.1 h
  exact List.mem_append_left _ (List.mem_map_of_mem (hdb.wellFormed.active_subset hm))

theorem step_hypothesis (hdb : db.Loaded) (hthm : thm ∈ db.assertions) (r : Replay) {l : Label}
    {h₀ : Hypothesis} (h : db.activeHypothesis? l = some h₀) :
    r.step db thm l = .ok (r.push (some h₀.expr)) := by
  refine Replay.step_of_hypothesis (hdb.label_ne_unknown (hdb.mem_labels_of_active h)) ?_ h
  obtain ⟨hm, rfl⟩ := hdb.wellFormed.activeHypothesis?_eq_some_iff.1 h
  exact hdb.wellFormed.label_ne (hdb.wellFormed.active_subset hm) hthm

theorem activeHypothesis?_of_assertion? (hdb : db.Loaded) {l : Label} {a : Assertion}
    (ha : db.assertion? l = some a) : db.activeHypothesis? l = none :=
  hdb.wellFormed.activeHypothesis?_of_assertion? ha

theorem step_assertion (hdb : db.Loaded) (r : Replay) {l : Label} {a : Assertion}
    (ht : l ≠ thm.label) (ha : db.assertion? l = some a) :
    r.step db thm l = r.apply db a := by
  refine Replay.step_of_assertion ?_ ht (hdb.activeHypothesis?_of_assertion? ha) ha
  obtain ⟨hm, rfl⟩ := hdb.wellFormed.assertion?_eq_some_iff.1 ha
  exact hdb.label_ne_unknown (List.mem_append_right _ (List.mem_map_of_mem hm))

end Database.Loaded

/-! ## Steps of compressed proofs -/

namespace CompressedReplay

variable {db : Database} {thm : Assertion} {labels : List Label} {n : Nat}

/-- What a step that is taken can be. -/
theorem step_cases {c c' : CompressedReplay} {s : CompressedStep}
    (h : c.step db thm labels s = .ok c') :
    (s = .unknown ∧ c' = { c with replay := c.replay.pushUnknown }) ∨
      (s = .mark ∧ ∃ item ∈ c.replay.stack, c' = { c with saved := c.saved ++ [item] }) ∨
      ∃ n, s = .number n ∧
        ((n - 1 < thm.hypotheses.length ∧ ∃ l ∈ thm.hypotheses, ∃ h₀, db.hypothesis? l = some h₀ ∧
            c' = { c with replay := c.replay.push (some h₀.expr) }) ∨
          thm.hypotheses.length ≤ n - 1 ∧
            ((∃ l r, labels[n - 1 - thm.hypotheses.length]? = some l ∧
                c.replay.step db thm l = .ok r ∧ c' = { c with replay := r }) ∨
              labels[n - 1 - thm.hypotheses.length]? = none ∧ ∃ item ∈ c.saved,
                c' = { c with replay := c.replay.push item })) := by
  cases s with
  | unknown => exact .inl ⟨rfl, (Except.ok.inj h).symm⟩
  | mark =>
    right; left
    rw [step] at h
    split at h
    · cases h
    · rename_i item items hstack
      exact ⟨rfl, item, hstack ▸ .head _, (Except.ok.inj h).symm⟩
  | number n =>
    refine .inr (.inr ⟨n, rfl, ?_⟩)
    rw [step] at h
    dsimp only at h
    split_ifs at h with hn
    · left
      split at h
      · rename_i h₀ hh
        obtain ⟨l, hl, hh₀⟩ := Option.bind_eq_some_iff.1 hh
        exact ⟨hn, l, List.mem_of_getElem? hl, h₀, hh₀, (Except.ok.inj h).symm⟩
      · cases h
    · refine .inr ⟨Nat.not_lt.1 hn, ?_⟩
      split at h
      · rename_i l hl
        obtain ⟨r, hr, hc⟩ := map_eq_ok_iff.1 h
        exact .inl ⟨l, r, hl, hr, hc.symm⟩
      · rename_i hl
        split at h
        · rename_i item hitem
          exact .inr ⟨hl, item, List.mem_of_getElem? hitem, (Except.ok.inj h).symm⟩
        · cases h

/-- A number that stands for a mandatory hypothesis or for a label of the proof is the step that the
label names. -/
theorem step_number_of_label (hdb : db.Loaded) (hthm : thm ∈ db.assertions)
    (hactive : ∀ l ∈ thm.hypotheses, (db.activeHypothesis? l).isSome) (c : CompressedReplay)
    {l : Label} (hl : (thm.hypotheses ++ labels)[n - 1]? = some l) :
    c.step db thm labels (.number n) =
      (c.replay.step db thm l).map fun r => { c with replay := r } := by
  rw [step]
  dsimp only
  split_ifs with hn
  · rw [List.getElem?_append_left hn] at hl
    obtain ⟨h₀, hh⟩ := Option.isSome_iff_exists.1 (hactive l (List.mem_of_getElem? hl))
    rw [hdb.step_hypothesis hthm _ hh]
    obtain ⟨hm, rfl⟩ := hdb.wellFormed.activeHypothesis?_eq_some_iff.1 hh
    rw [hl, Option.bind_some, hdb.wellFormed.hypothesis?_of_active hm]
    rfl
  · rw [List.getElem?_append_right (Nat.not_lt.1 hn)] at hl
    rw [hl]

/-- Any other number pushes the item that a mark has saved. -/
theorem step_number_eq_ok_iff_of_saved {c c' : CompressedReplay}
    (hn : (thm.hypotheses ++ labels)[n - 1]? = none) :
    c.step db thm labels (.number n) = .ok c' ↔
      ∃ item, c.saved[n - 1 - thm.hypotheses.length - labels.length]? = some item ∧
        c' = { c with replay := c.replay.push item } := by
  rw [List.getElem?_eq_none_iff, List.length_append] at hn
  have hhyp : ¬ n - 1 < thm.hypotheses.length := by omega
  have hlabel : labels[n - 1 - thm.hypotheses.length]? = none :=
    List.getElem?_eq_none (by omega)
  simp only [step, if_neg hhyp, hlabel]
  cases c.saved[n - 1 - thm.hypotheses.length - labels.length]? <;> simp [eq_comm (b := c')]

end CompressedReplay

end Metamath
