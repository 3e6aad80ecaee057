import Metamath.Proofs.Replay.Basic

/-!
# What proofs preserve

A property of expressions is kept by the proofs of a theorem (`KeptByProofs`) when the hypotheses
that a proof may use have it and every application of an assertion passes it on. It then holds of
everything known on the stack, in both formats, and so of every theorem with a complete proof
(`KeptByProofs.of_complete`).
-/

namespace Metamath

variable {db : Database} {thm : Assertion} {P : Expr → Prop}

/-- Whatever a proof of the theorem may push has the property. -/
structure KeptByProofs (db : Database) (thm : Assertion) (P : Expr → Prop) : Prop where
  active : ∀ h ∈ db.activeHypotheses, P h.expr
  mandatory : ∀ l ∈ thm.hypotheses, ∀ h, db.hypothesis? l = some h → P h.expr
  apply : ∀ a ∈ db.assertions, a.label ≠ thm.label → ∀ args σ e, (∀ arg ∈ args, P arg) →
    unify db a args = .ok (σ, e) → P e

/-- All known items have the property. -/
def Known (P : Expr → Prop) (items : List (Option Expr)) : Prop :=
  ∀ e, some e ∈ items → P e

theorem Known.mono {items items' : List (Option Expr)} (h : Known P items) (hs : items' ⊆ items) :
    Known P items' :=
  fun e he => h e (hs he)

theorem Known.cons_some {items : List (Option Expr)} {e : Expr} (h : Known P items) (he : P e) :
    Known P (some e :: items) := by
  rintro e' (_ | ⟨_, he'⟩)
  · exact he
  · exact h e' he'

theorem Known.cons_none {items : List (Option Expr)} (h : Known P items) :
    Known P (none :: items) := by
  rintro e (_ | ⟨_, he⟩)
  exact h e he

theorem Known.cons_of_mem {items : List (Option Expr)} {saved : List (Option Expr)}
    {item : Option Expr} (h : Known P items) (hs : Known P saved) (hm : item ∈ saved) :
    Known P (item :: items) := by
  cases item with
  | none => exact h.cons_none
  | some e => exact h.cons_some (hs e hm)

namespace KeptByProofs

variable {r r' : Replay} {c c' : CompressedReplay} {labels : List Label}

theorem apply_known (hP : KeptByProofs db thm P) (h : Known P r.stack) {a : Assertion}
    (ha : a ∈ db.assertions) (hl : a.label ≠ thm.label) (hr : r.apply db a = .ok r') :
    Known P r'.stack := by
  obtain ⟨-, ⟨-, rfl⟩ | ⟨args, σ, e, hargs, hu, rfl⟩⟩ := Replay.apply_eq_ok_iff.1 hr
  · exact (h.mono (List.drop_subset _ _)).cons_none
  · refine (h.mono (List.drop_subset _ _)).cons_some (hP.apply a ha hl args σ e ?_ hu)
    intro arg harg
    have hmem : some arg ∈ (r.stack.take a.hypotheses.length).reverse := by
      rw [hargs]
      exact List.mem_map_of_mem harg
    exact h arg (List.take_subset _ _ (List.mem_reverse.1 hmem))

theorem step_known (hP : KeptByProofs db thm P) (h : Known P r.stack) {l : Label}
    (hr : r.step db thm l = .ok r') : Known P r'.stack := by
  obtain ⟨-, rfl⟩ | ⟨-, -, h₀, hh, rfl⟩ | ⟨-, hl, -, a, ha, happ⟩ := Replay.step_cases hr
  · exact h.cons_none
  · exact h.cons_some (hP.active h₀ (List.mem_of_find?_eq_some hh))
  · have hla : a.label = l := by simpa using List.find?_some ha
    exact hP.apply_known h (List.mem_of_find?_eq_some ha) (hla ▸ hl) happ

theorem compressed_step_known (hP : KeptByProofs db thm P) (h : Known P c.replay.stack)
    (hs : Known P c.saved) {s : CompressedStep} (hc : c.step db thm labels s = .ok c') :
    Known P c'.replay.stack ∧ Known P c'.saved := by
  obtain ⟨-, rfl⟩ | ⟨-, item, hitem, rfl⟩ | ⟨n, -, ⟨-, l, hl, h₀, hh, rfl⟩ |
    ⟨-, ⟨l, r, -, hr, rfl⟩ | ⟨-, item, hitem, rfl⟩⟩⟩ := CompressedReplay.step_cases hc
  · exact ⟨h.cons_none, hs⟩
  · refine ⟨h, fun e he => ?_⟩
    rcases List.mem_append.1 he with he | he
    · exact hs e he
    · exact h e (List.mem_singleton.1 he ▸ hitem)
  · exact ⟨h.cons_some (hP.mandatory l hl h₀ hh), hs⟩
  · exact ⟨hP.step_known h hr, hs⟩
  · exact ⟨h.cons_of_mem hs hitem, hs⟩

/-- A replay that is accepted as complete ends with the statement of the theorem. -/
theorem of_verdict (h : Known P r.stack) (hne : thm.expr ≠ []) {taken : Nat}
    {failure : Option (Nat × ProofError)} (hv : r.verdict thm taken failure = ⟨false, none⟩) :
    P thm.expr := by
  obtain ⟨-, -, item, hstack, hitem⟩ := Replay.verdict_eq_complete_iff.1 hv
  cases item with
  | none => exact absurd hitem.symm hne
  | some e =>
    obtain rfl : e = thm.expr := hitem
    exact h _ (hstack ▸ List.mem_cons_self)

/-- A theorem with a complete proof has every property that its proofs keep. -/
theorem of_complete (hP : KeptByProofs db thm P) (hne : thm.expr ≠ [])
    (hv : HasVerdict db thm ⟨false, none⟩) : P thm.expr := by
  have hempty : Known P [] := fun e he => by cases he
  obtain ⟨steps, hv⟩ | ⟨labels, letters, hv⟩ := hv
  · refine of_verdict (runSteps_induction (P := fun r : Replay => Known P r.stack) ?_ hempty _ _) hne hv
    exact fun r l r' hr h => hP.step_known h hr
  · rw [checkCompressed] at hv
    split at hv
    · cases hv
    · refine of_verdict (runSteps_induction
        (P := fun c : CompressedReplay => Known P c.replay.stack ∧ Known P c.saved)
        ?_ ⟨hempty, hempty⟩ _ _).1 hne hv
      exact fun c s c' hc h => hP.compressed_step_known h.1 h.2 hc

end KeptByProofs

end Metamath
