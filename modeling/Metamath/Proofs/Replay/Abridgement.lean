import Mathlib.Data.List.Forall2
import Metamath.Proofs.Replay.Expansion
import Metamath.Proofs.Replay.Tree

/-!
# Abridged proofs

A proof is abridged by putting an unknown step in place of some of its sub-proofs, which are the
blocks of labels that list a tree (`ProofTree.isShaped`), such as any tree that proves something
(`ProofTree.isShaped_of_conclusion?`). The replay of the abridged proof knows no more than the replay
of the whole one, item by item (`Vaguer`), and takes every step that the other takes
(`exists_runSteps_abridged`). So it is never refused where the whole proof is accepted
(`checkNormal_abridged`).
-/

namespace Metamath

/-! ## Blocks that list a tree -/

namespace ProofTree

mutual

/-- Whether every leaf names an active hypothesis and every other node an assertion, with one subtree
for each of its hypotheses. -/
def isShaped (db : Database) : ProofTree → Bool
  | hypothesis l => (db.activeHypothesis? l).isSome
  | assertion l ts =>
    (db.assertion? l).any (fun a => a.hypotheses.length == ts.length) && areShaped db ts

/-- Whether trees that stand side by side have the shape. -/
def areShaped (db : Database) : List ProofTree → Bool
  | [] => true
  | t :: ts => isShaped db t && areShaped db ts

end

variable {db : Database} {thm : Assertion}

theorem isShaped_assertion_iff {l : Label} {ts : List ProofTree} :
    (assertion l ts).isShaped db ↔
      ∃ a, db.assertion? l = some a ∧ a.hypotheses.length = ts.length ∧ areShaped db ts := by
  rw [isShaped]
  cases db.assertion? l <;> simp

theorem areShaped_cons_iff {t : ProofTree} {ts : List ProofTree} :
    areShaped db (t :: ts) ↔ t.isShaped db ∧ areShaped db ts := by
  rw [areShaped, Bool.and_eq_true]

mutual

/-- A tree that proves something has the shape. -/
theorem isShaped_of_conclusion? : ∀ (t : ProofTree) {e : Expr},
    t.conclusion? db thm = some e → t.isShaped db
  | hypothesis l, e, h => by
    obtain ⟨h₀, hh, -⟩ := conclusion?_hypothesis_eq_some_iff.1 h
    rw [isShaped, hh]
    rfl
  | assertion l ts, e, h => by
    obtain ⟨-, a, args, σ, ha, hc, hu⟩ := conclusion?_assertion_eq_some_iff.1 h
    have hlen : a.hypotheses.length = ts.length := by
      rw [← length_of_unify hu, length_conclusions? hc]
    exact isShaped_assertion_iff.2 ⟨a, ha, hlen, areShaped_of_conclusions? ts hc⟩

theorem areShaped_of_conclusions? : ∀ (ts : List ProofTree) {es : List Expr},
    conclusions? db thm ts = some es → areShaped db ts
  | [], es, h => rfl
  | t :: ts, es, h => by
    obtain ⟨e, es', he, hes, -⟩ := conclusions?_cons_eq_some_iff.1 h
    exact areShaped_cons_iff.2 ⟨isShaped_of_conclusion? t he, areShaped_of_conclusions? ts hes⟩

end

mutual

/-- Replaying the listing of a tree, if no step of it fails, puts one item on the stack. -/
theorem stack_of_runSteps_postorder (hdb : db.Loaded) : ∀ (t : ProofTree), t.isShaped db →
    ∀ {taken : Nat} {r r' : Replay},
      runSteps (Replay.step db thm) taken r t.postorder = (r', none) →
        ∃ item, r'.stack = item :: r.stack
  | hypothesis l, hs, taken, r, r', h => by
    rw [postorder] at h
    obtain ⟨r₁, hl, h⟩ := runSteps_cons_eq_none_iff.1 h
    obtain ⟨rfl, -⟩ := Prod.mk.inj h
    obtain ⟨h₀, hh⟩ := Option.isSome_iff_exists.1 hs
    obtain ⟨item, rfl, -⟩ := Replay.step_local hdb hl
    rw [hdb.arity_hypothesis hh]
    exact ⟨item, rfl⟩
  | assertion l ts, hs, taken, r, r', h => by
    obtain ⟨a, ha, hlen, hts⟩ := isShaped_assertion_iff.1 hs
    rw [postorder] at h
    obtain ⟨r₁, hrun, h⟩ := runSteps_append_eq_none_iff.1 h
    obtain ⟨items, hitems, hstack⟩ := stack_of_runSteps_postorders hdb ts hts hrun
    obtain ⟨r₂, hl, h⟩ := runSteps_cons_eq_none_iff.1 h
    obtain ⟨rfl, -⟩ := Prod.mk.inj h
    obtain ⟨item, rfl, -⟩ := Replay.step_local hdb hl
    -- the last step takes what the subtrees have put there
    have hdrop : r₁.stack.drop (db.arity l) = r.stack := by
      rw [hstack, Database.arity_of_assertion ha, hlen, ← hitems, List.drop_left]
    exact ⟨item, congrArg (item :: ·) hdrop⟩

theorem stack_of_runSteps_postorders (hdb : db.Loaded) : ∀ (ts : List ProofTree), areShaped db ts →
    ∀ {taken : Nat} {r r' : Replay},
      runSteps (Replay.step db thm) taken r (postorders ts) = (r', none) →
        ∃ items, items.length = ts.length ∧ r'.stack = items ++ r.stack
  | [], hs, taken, r, r', h => by
    rw [postorders] at h
    obtain ⟨rfl, -⟩ := Prod.mk.inj h
    exact ⟨[], rfl, rfl⟩
  | t :: ts, hs, taken, r, r', h => by
    obtain ⟨ht, hts⟩ := areShaped_cons_iff.1 hs
    rw [postorders] at h
    obtain ⟨r₁, h₁, h₂⟩ := runSteps_append_eq_none_iff.1 h
    obtain ⟨item, hitem⟩ := stack_of_runSteps_postorder hdb t ht h₁
    obtain ⟨items, hlen, hitems⟩ := stack_of_runSteps_postorders hdb ts hts h₂
    refine ⟨items ++ [item], by simp [hlen], ?_⟩
    rw [hitems, hitem, List.append_assoc, List.singleton_append]

end

end ProofTree

/-! ## Parts of a proof -/

/-- A part of a proof: one step, or a whole sub-proof. -/
inductive ProofPart where
  | step (l : Label)
  | subproof (t : ProofTree)

namespace ProofPart

/-- The labels of a part. -/
def labels : ProofPart → List Label
  | step l => [l]
  | subproof t => t.postorder

/-- The labels of a part when its sub-proof is left out: an unknown step stands for it. -/
def abridged : ProofPart → List Label
  | step l => [l]
  | subproof _ => ["?"]

end ProofPart

/-! ## Knowing less -/

/-- The second item is the first one, or nothing is known about it. -/
def Vaguer (item item' : Option Expr) : Prop :=
  item' = item ∨ item' = none

theorem eq_map_some_of_vaguer {items : List (Option Expr)} {args : List Expr}
    (h : List.Forall₂ Vaguer items (args.map some)) : items = args.map some := by
  induction args generalizing items with
  | nil => exact List.forall₂_nil_right_iff.1 h
  | cons arg args ih =>
    obtain ⟨item, items, hitem, hitems, rfl⟩ := List.forall₂_cons_right_iff.1 h
    obtain rfl : item = some arg := (hitem.resolve_right (by simp)).symm
    rw [ih hitems, List.map_cons]

namespace Replay

variable {db : Database} {thm : Assertion} {r r' r₁ : Replay}

/-- An assertion that applies also applies when less is known, and then less is known of the
conclusion. -/
theorem exists_apply_of_vaguer (hv : List.Forall₂ Vaguer r.stack r'.stack) {a : Assertion}
    (h : r.apply db a = .ok r₁) :
    ∃ r₁', r'.apply db a = .ok r₁' ∧ List.Forall₂ Vaguer r₁.stack r₁'.stack := by
  obtain ⟨hn, hr⟩ := apply_eq_ok_iff.1 h
  have hn' : a.hypotheses.length ≤ r'.stack.length := hv.length_eq ▸ hn
  have hdrop := List.forall₂_drop a.hypotheses.length hv
  cases hk : allKnown? (r'.stack.take a.hypotheses.length).reverse with
  | none =>
    refine ⟨_, apply_eq_ok_iff.2 ⟨hn', .inl ⟨hk, rfl⟩⟩, ?_⟩
    obtain ⟨-, rfl⟩ | ⟨args, σ, e, -, -, rfl⟩ := hr <;> exact .cons (.inr rfl) hdrop
  | some args =>
    -- with all arguments known, they are those of the other replay
    have hargs' := allKnown?_eq_some_iff.1 hk
    have hargs : (r.stack.take a.hypotheses.length).reverse = args.map some :=
      eq_map_some_of_vaguer (hargs' ▸ List.rel_reverse (List.forall₂_take _ hv))
    rw [hargs, allKnown?_map_some] at hr
    obtain ⟨⟨⟩, -⟩ | ⟨args₁, σ, e, hargs₁, hu, rfl⟩ := hr
    obtain rfl := (List.map_inj_right fun _ _ => Option.some.inj).1 hargs₁
    refine ⟨_, apply_eq_ok_iff.2 ⟨hn', .inr ⟨args, σ, e, hargs', hu, rfl⟩⟩, ?_⟩
    exact .cons (.inl rfl) hdrop

/-- A step that is taken is also taken when less is known. -/
theorem exists_step_of_vaguer (hv : List.Forall₂ Vaguer r.stack r'.stack) {l : Label}
    (h : r.step db thm l = .ok r₁) :
    ∃ r₁', r'.step db thm l = .ok r₁' ∧ List.Forall₂ Vaguer r₁.stack r₁'.stack := by
  obtain ⟨rfl, rfl⟩ | ⟨hu, ht, h₀, hh, rfl⟩ | ⟨hu, ht, hh, a, ha, happ⟩ := step_cases h
  · exact ⟨_, step_unknown, .cons (.inl rfl) hv⟩
  · exact ⟨_, step_of_hypothesis hu ht hh, .cons (.inl rfl) hv⟩
  · obtain ⟨r₁', happ', hv₁⟩ := exists_apply_of_vaguer hv happ
    exact ⟨r₁', (step_of_assertion hu ht hh ha).trans happ', hv₁⟩

/-- A part that is replayed without failure is so also when it is abridged and less is known. -/
theorem exists_runSteps_part (hdb : db.Loaded) {part : ProofPart}
    (hshape : ∀ t, part = .subproof t → t.isShaped db) {taken : Nat} (taken' : Nat)
    (hv : List.Forall₂ Vaguer r.stack r'.stack)
    (h : runSteps (step db thm) taken r part.labels = (r₁, none)) :
    ∃ r₁', runSteps (step db thm) taken' r' part.abridged = (r₁', none) ∧
      List.Forall₂ Vaguer r₁.stack r₁'.stack ∧
      (r'.incomplete ∨ (∃ t, part = .subproof t) → r₁'.incomplete) := by
  cases part with
  | step l =>
    obtain ⟨r₂, hl, hnil⟩ := runSteps_cons_eq_none_iff.1 h
    obtain ⟨rfl, -⟩ := Prod.mk.inj hnil
    obtain ⟨r₁', hl', hv₁⟩ := exists_step_of_vaguer hv hl
    refine ⟨r₁', runSteps_cons_eq_none_iff.2 ⟨r₁', hl', rfl⟩, hv₁, ?_⟩
    rintro (hi | ⟨t, ⟨⟩⟩)
    exact step_incomplete hl' hi
  | subproof t =>
    obtain ⟨item, hitem⟩ := ProofTree.stack_of_runSteps_postorder hdb t (hshape t rfl) h
    refine ⟨r'.pushUnknown, rfl, ?_, fun _ => rfl⟩
    rw [hitem]
    exact .cons (.inr rfl) hv

/-- The replay of the abridged proof takes every step, as long as that of the whole proof does. -/
theorem exists_runSteps_abridged (hdb : db.Loaded) {parts : List ProofPart}
    (hshape : ∀ t, .subproof t ∈ parts → t.isShaped db) {taken : Nat} (taken' : Nat)
    (hv : List.Forall₂ Vaguer r.stack r'.stack)
    (h : runSteps (step db thm) taken r (parts.flatMap ProofPart.labels) = (r₁, none)) :
    ∃ r₁', runSteps (step db thm) taken' r' (parts.flatMap ProofPart.abridged) = (r₁', none) ∧
      List.Forall₂ Vaguer r₁.stack r₁'.stack ∧
      (r'.incomplete ∨ (∃ t, .subproof t ∈ parts) → r₁'.incomplete) := by
  induction parts generalizing r r' taken taken' with
  | nil =>
    obtain ⟨rfl, -⟩ := Prod.mk.inj h
    exact ⟨r', rfl, hv, by simp⟩
  | cons part parts ih =>
    rw [List.flatMap_cons] at h
    obtain ⟨r₂, hpart, hrest⟩ := runSteps_append_eq_none_iff.1 h
    obtain ⟨r₂', hpart', hv₂, hi₂⟩ :=
      exists_runSteps_part hdb (fun t ht => hshape t (ht ▸ .head _)) taken' hv hpart
    obtain ⟨r₁', hrest', hv₁, hi₁⟩ := ih (fun t ht => hshape t (.tail _ ht)) _ hv₂ hrest
    refine ⟨r₁', ?_, hv₁, fun hi => hi₁ ?_⟩
    · rw [List.flatMap_cons]
      exact runSteps_append_eq_none_iff.2 ⟨r₂', hpart', hrest'⟩
    · obtain hi | ⟨t, ht⟩ := hi
      · exact .inl (hi₂ (.inl hi))
      · rcases List.mem_cons.1 ht with rfl | ht
        · exact .inl (hi₂ (.inr ⟨t, rfl⟩))
        · exact .inr ⟨t, ht⟩

end Replay

/-- A proof that is accepted is accepted as incomplete when an unknown step is put in place of any of
its sub-proofs, of one at least. So nothing that fills the unknown steps of a refused proof can make
it acceptable. -/
theorem checkNormal_abridged {db : Database} {thm : Assertion} (hdb : db.Loaded)
    {parts : List ProofPart} (hshape : ∀ t, .subproof t ∈ parts → t.isShaped db)
    (hhole : ∃ t, .subproof t ∈ parts) :
    (checkNormal db thm (parts.flatMap ProofPart.labels) = ⟨false, none⟩ →
      checkNormal db thm (parts.flatMap ProofPart.abridged) = ⟨true, none⟩) ∧
    ((checkNormal db thm (parts.flatMap ProofPart.abridged)).failure.isSome →
      (checkNormal db thm (parts.flatMap ProofPart.labels)).failure.isSome) := by
  have haccepted : ∀ b, checkNormal db thm (parts.flatMap ProofPart.labels) = ⟨b, none⟩ →
      checkNormal db thm (parts.flatMap ProofPart.abridged) = ⟨true, none⟩ := by
    intro b h
    obtain ⟨r, hrun, -⟩ := checkNormal_eq_accepted_iff.1 h
    have hempty : List.Forall₂ Vaguer ({} : Replay).stack ({} : Replay).stack := .nil
    obtain ⟨r', hrun', -, hi⟩ := Replay.exists_runSteps_abridged hdb hshape 0 hempty hrun
    have hi' : r'.incomplete := hi (.inr hhole)
    exact checkNormal_eq_accepted_iff.2 ⟨r', hrun', Replay.finish_eq_ok_iff.2 (.inl hi'), hi'⟩
  refine ⟨haccepted false, fun hrefused => ?_⟩
  by_contra hnone
  rw [Option.not_isSome_iff_eq_none] at hnone
  have h := haccepted (checkNormal db thm (parts.flatMap ProofPart.labels)).incomplete
    (by rw [← hnone])
  rw [h] at hrefused
  cases hrefused

namespace Sample

/-- The proof of `twice`. The formula that the last step is about is left out, and so is the proof of
what `again` repeats. -/
def parts : List ProofPart :=
  [.subproof (.assertion "wi" [.hypothesis "wq", .hypothesis "wp"]), .step "wq", .step "wq",
    .step "wp", .step "wi",
    .subproof (.assertion "once" [.hypothesis "wp", .hypothesis "wq", .hypothesis "hyp"]),
    .step "again", .step "once"]

end Sample

theorem twice_abridged :
    (∀ t, .subproof t ∈ Sample.parts → t.isShaped Sample.db) ∧
    checkNormal Sample.db Sample.twice
      ["wq", "wp", "wi", "wq", "wq", "wp", "wi", "wp", "wq", "hyp", "once", "again", "once"] =
        ⟨false, none⟩ ∧
    checkNormal Sample.db Sample.twice
      ["?", "wq", "wq", "wp", "wi", "?", "again", "once"] = ⟨true, none⟩ := by
  have hshape : ∀ t, .subproof t ∈ Sample.parts → t.isShaped Sample.db := by
    intro t ht
    simp only [Sample.parts, List.mem_cons, List.not_mem_nil, ProofPart.subproof.injEq,
      reduceCtorEq, false_or, or_false] at ht
    rcases ht with rfl | rfl <;> decide +kernel
  have hfull : checkNormal Sample.db Sample.twice (Sample.parts.flatMap ProofPart.labels) =
      ⟨false, none⟩ := by decide +kernel
  exact ⟨hshape, hfull, (checkNormal_abridged Sample.loaded hshape ⟨_, .head _⟩).1 hfull⟩

end Metamath
