import Metamath.Proofs.Replay.Persistence
import Metamath.Proofs.Replay.Unknown

/-!
# Items of a replay

While a proof is replayed, every known item is an expression that could be declared in the same
place: a constant followed by constants and by variables with an active floating hypothesis
(`keptByProofs_active`). An item is unknown only after an unknown step, and then the replay is
marked as incomplete (`Replay.Flagged.step`, `CompressedReplay.flagged_of_step`).
-/

namespace Metamath

variable {db : Database} {thm : Assertion}

/-! ## Known items -/

/-- A constant, followed by constants and variables with an active floating hypothesis. -/
def Database.Usable (db : Database) (e : Expr) : Prop :=
  ∃ typecode rest, e = typecode :: rest ∧ db.isConstant typecode ∧
    ∀ s ∈ rest, db.isConstant s ∨ db.isVariable s ∧ (db.floating? s).isSome

theorem Database.WellFormed.usable (hdb : db.WellFormed) {e : Expr}
    (he : e.Over db.constants (subjects db.activeHypotheses)) : db.Usable e := by
  cases e with
  | nil => exact he.elim
  | cons typecode rest =>
    obtain ⟨hconstant, hrest⟩ := he
    refine ⟨typecode, rest, rfl, Database.isConstant_iff.2 hconstant, fun s hs => ?_⟩
    rcases hrest s hs with hs | hs
    · exact .inl (Database.isConstant_iff.2 hs)
    · exact .inr ⟨Database.isVariable_iff.2 (hdb.subjects_active_subset hs),
        Database.floating?_isSome_iff.2 (hdb.typed_eq ▸ hs)⟩

/-- Proofs of a theorem with active hypotheses handle nothing but constants and variables with an
active floating hypothesis. The frame of an assertion may have variables that are no longer active,
but each of them is replaced. -/
theorem keptByProofs_active (hdb : db.WellFormed)
    (hactive : ∀ l ∈ thm.hypotheses, (db.activeHypothesis? l).isSome) :
    KeptByProofs db thm (Expr.Over db.constants (subjects db.activeHypotheses)) where
  active := fun _ hh => hdb.wellScoped.expr_over hh
  mandatory := by
    intro l hl h hh
    obtain ⟨h₀, hh₀⟩ := Option.isSome_iff_exists.1 (hactive l hl)
    obtain ⟨hmem, rfl⟩ := hdb.activeHypothesis?_eq_some_iff.1 hh₀
    obtain rfl := Option.some.inj ((hdb.hypothesis?_of_active hmem).symm.trans hh)
    exact hdb.wellScoped.expr_over hmem
  apply := fun _ ha _ _ _ _ hargs hu => over_of_unify hdb ha hargs hu

/-! ## Unknown items -/

theorem none_mem_of_allKnown? {α : Type} {items : List (Option α)} (h : allKnown? items = none) :
    none ∈ items := by
  induction items with
  | nil => cases h
  | cons item items ih =>
    cases item with
    | none => exact .head _
    | some a => exact .tail _ (ih (Option.map_eq_none_iff.1 h))

namespace Replay

variable {r r' : Replay}

/-- Unknown items are found only in an incomplete replay. -/
def Flagged (r : Replay) (items : List (Option Expr)) : Prop :=
  none ∈ items → r.incomplete

theorem Flagged.push (hr : r.Flagged r.stack) {item : Option Expr}
    (h : item = none → r.incomplete) : (r.push item).Flagged (r.push item).stack := by
  intro hmem
  rcases List.mem_cons.1 hmem with hitem | hmem
  · exact h hitem.symm
  · exact hr hmem

/-- An application gives an unknown item only if one of its arguments is unknown. -/
theorem Flagged.apply (hr : r.Flagged r.stack) {a : Assertion} (h : r.apply db a = .ok r') :
    r'.Flagged r'.stack := by
  obtain ⟨-, ⟨hunknown, rfl⟩ | ⟨args, σ, e, -, -, rfl⟩⟩ := apply_eq_ok_iff.1 h
  · intro _
    exact hr (List.take_subset _ _ (List.mem_reverse.1 (none_mem_of_allKnown? hunknown)))
  · rintro (_ | ⟨_, hmem⟩)
    exact hr (List.drop_subset _ _ hmem)

theorem Flagged.step (hr : r.Flagged r.stack) {l : Label} (h : r.step db thm l = .ok r') :
    r'.Flagged r'.stack := by
  obtain ⟨-, rfl⟩ | ⟨-, -, h₀, -, rfl⟩ | ⟨-, -, -, a, -, ha⟩ := step_cases h
  · exact fun _ => rfl
  · exact hr.push (by simp)
  · exact hr.apply ha

end Replay

theorem CompressedReplay.flagged_of_step {c c' : CompressedReplay} {labels : List Label}
    (hstack : c.replay.Flagged c.replay.stack) (hsaved : c.replay.Flagged c.saved)
    {s : CompressedStep} (h : c.step db thm labels s = .ok c') :
    c'.replay.Flagged c'.replay.stack ∧ c'.replay.Flagged c'.saved := by
  obtain ⟨-, rfl⟩ | ⟨-, item, hitem, rfl⟩ | ⟨n, -, ⟨-, l, -, h₀, -, rfl⟩ |
    ⟨-, ⟨l, r, -, hr, rfl⟩ | ⟨-, item, hitem, rfl⟩⟩⟩ := step_cases h
  · exact ⟨fun _ => rfl, fun _ => rfl⟩
  · refine ⟨hstack, fun hmem => ?_⟩
    rcases List.mem_append.1 hmem with hmem | hmem
    · exact hsaved hmem
    · exact hstack (List.mem_singleton.1 hmem ▸ hitem)
  · exact ⟨hstack.push (by simp), hsaved⟩
  · exact ⟨hstack.step hr, fun hmem => (Replay.incomplete_of_step hr).2 (.inl (hsaved hmem))⟩
  · exact ⟨hstack.push fun hnone => hsaved (hnone ▸ hitem), hsaved⟩

/-! ## Runs -/

/-- What holds of the items that a replay has at hand, `Asked` saying whether a step was unknown. -/
structure Replay.Holds (db : Database) (r : Replay) (items : List (Option Expr)) (Asked : Prop) :
    Prop where
  usable : ∀ e, some e ∈ items → db.Usable e
  unknown : none ∈ items → Asked
  incomplete_iff : r.incomplete ↔ Asked

/-- What the steps of a proof preserve: known items are over usable symbols, and unknown ones are
found only in an incomplete replay. -/
structure Replay.Tidy (db : Database) (r : Replay) (items : List (Option Expr)) : Prop where
  known : Known (Expr.Over db.constants (subjects db.activeHypotheses)) items
  flagged : r.Flagged items

namespace Replay.Tidy

variable {r : Replay} {items : List (Option Expr)}

theorem nil : r.Tidy db [] :=
  ⟨fun _ h => absurd h List.not_mem_nil, fun h => absurd h List.not_mem_nil⟩

theorem append {items' : List (Option Expr)} (h : r.Tidy db items) (h' : r.Tidy db items') :
    r.Tidy db (items ++ items') where
  known := fun e he => (List.mem_append.1 he).elim (h.known e) (h'.known e)
  flagged := fun hmem => (List.mem_append.1 hmem).elim h.flagged h'.flagged

theorem holds (h : r.Tidy db items) (hdb : db.WellFormed) {Asked : Prop}
    (hiff : r.incomplete ↔ Asked) : r.Holds db items Asked where
  usable := fun e he => hdb.usable (h.known e he)
  unknown := fun hmem => hiff.1 (h.flagged hmem)
  incomplete_iff := hiff

end Replay.Tidy

/-- At every point of the replay of a proof whose theorem has active hypotheses, the known items on
the stack and among those that are marked could be declared as they are, items are unknown only
after an unknown step, and it is such steps that make the proof incomplete. -/
theorem replay_items (hdb : db.Loaded)
    (hactive : ∀ l ∈ thm.hypotheses, (db.activeHypothesis? l).isSome) :
    (∀ steps r, runSteps (Replay.step db thm) 0 {} steps = (r, none) →
      r.Holds db r.stack ("?" ∈ steps)) ∧
    ∀ labels steps c, runSteps (CompressedReplay.step db thm labels) 0 {} steps = (c, none) →
      c.replay.Holds db (c.replay.stack ++ c.saved) (∃ s ∈ steps, s.IsUnknown thm labels) := by
  have hkept := keptByProofs_active hdb.wellFormed hactive
  constructor
  · intro steps r hrun
    have hstep : ∀ r l r', Replay.step db thm r l = .ok r' → r.Tidy db r.stack →
        r'.Tidy db r'.stack :=
      fun _ _ _ hr h => ⟨hkept.step_known h.known hr, h.flagged.step hr⟩
    have hstack := runSteps_induction (s := {}) hstep .nil 0 steps
    have hflag := runSteps_flag_iff hrun fun _ _ _ => Replay.incomplete_of_step
    rw [hrun] at hstack
    exact hstack.holds hdb.wellFormed (by simpa using hflag)
  · intro labels steps c hrun
    have hstep : ∀ c s c', CompressedReplay.step db thm labels c s = .ok c' →
        c.replay.Tidy db c.replay.stack ∧ c.replay.Tidy db c.saved →
        c'.replay.Tidy db c'.replay.stack ∧ c'.replay.Tidy db c'.saved := by
      rintro c s c' hc ⟨hstack, hsaved⟩
      obtain ⟨hknown, hknown'⟩ := hkept.compressed_step_known hstack.known hsaved.known hc
      obtain ⟨hflagged, hflagged'⟩ :=
        CompressedReplay.flagged_of_step hstack.flagged hsaved.flagged hc
      exact ⟨⟨hknown, hflagged⟩, ⟨hknown', hflagged'⟩⟩
    have hitems := runSteps_induction (s := {}) hstep ⟨.nil, .nil⟩ 0 steps
    have hflag := runSteps_flag_iff hrun fun _ _ _ => CompressedReplay.incomplete_of_step
    rw [hrun] at hitems
    exact (hitems.1.append hitems.2).holds hdb.wellFormed (by simpa using hflag)

namespace Sample

/-- The start of a proof that applies an assertion to an unknown item. -/
def startNormal : List Label :=
  ["wq", "wp", "wi", "?", "wq", "wi"]

/-- The start of a proof that marks an item, then an unknown one, and comes back to the latter. -/
def startCompressed : List CompressedStep :=
  [.number 2, .number 1, .number 4, .mark, .unknown, .mark, .number 7]

end Sample

theorem twice_items :
    (∀ l ∈ Sample.twice.hypotheses, (Sample.db.activeHypothesis? l).isSome) ∧
    (∃ r, runSteps (Replay.step Sample.db Sample.twice) 0 {} Sample.startNormal = (r, none) ∧
      r.stack = [none, some ["wff", "(", "q", "->", "p", ")"]] ∧
      r.Holds Sample.db r.stack ("?" ∈ Sample.startNormal)) ∧
    ∃ c, runSteps (CompressedReplay.step Sample.db Sample.twice ["wi", "once"]) 0 {}
        Sample.startCompressed = (c, none) ∧
      c.replay.stack = [none, none, some ["wff", "(", "q", "->", "p", ")"]] ∧
      c.saved = [some ["wff", "(", "q", "->", "p", ")"], none] ∧
      c.replay.Holds Sample.db (c.replay.stack ++ c.saved)
        (∃ s ∈ Sample.startCompressed, s.IsUnknown Sample.twice ["wi", "once"]) := by
  have hactive : ∀ l ∈ Sample.twice.hypotheses, (Sample.db.activeHypothesis? l).isSome := by decide
  obtain ⟨hnormal, hcompressed⟩ := replay_items Sample.loaded hactive
  exact ⟨hactive, ⟨_, rfl, rfl, hnormal _ _ rfl⟩, ⟨_, rfl, rfl, rfl, hcompressed _ _ _ rfl⟩⟩

end Metamath
