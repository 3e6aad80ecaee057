import Mathlib.Data.List.Forall2
import Metamath.Proofs.Replay.Basic

/-!
# Expanding compressed proofs

A compressed proof says in numbers what a normal proof says in labels, and refers back to marked
items where a normal proof repeats the labels that produced them. `expansion` writes the labels out:
it keeps, for each item of the stack, the labels that produced it. Each of these lists pushes its
item wherever it is replayed (`Rebuilds`), so an accepted compressed proof expands to an accepted
normal proof that ends with the same stack (`checkNormal_expansion`).
-/

namespace Metamath

/-- How many items the step that a label names takes off the stack. -/
def Database.arity (db : Database) (l : Label) : Nat :=
  match db.assertion? l with
  | some a => a.hypotheses.length
  | none => 0

/-- A compressed proof written out so far: its labels, the labels that produced each item of the
stack, the top first, and those that produced each marked item. -/
structure Expansion where
  written : List Label := []
  blocks : List (List Label) := []
  saved : List (List Label) := []

namespace Expansion

/-- Writes a label. What it produces is due to what produced its arguments and to the label. -/
def writeLabel (db : Database) (x : Expansion) (l : Label) : Expansion :=
  let n := db.arity l
  { x with
    written := x.written ++ [l]
    blocks := ((x.blocks.take n).reverse.flatten ++ [l]) :: x.blocks.drop n }

/-- Writes the labels that produced a marked item. -/
def writeBlock (x : Expansion) (block : List Label) : Expansion :=
  { x with written := x.written ++ block, blocks := block :: x.blocks }

theorem written_writeLabel (db : Database) (x : Expansion) (l : Label) :
    (x.writeLabel db l).written = x.written ++ [l] := rfl

theorem written_writeBlock (x : Expansion) (block : List Label) :
    (x.writeBlock block).written = x.written ++ block := rfl

/-- Writes out a step. -/
def step (db : Database) (thm : Assertion) (labels : List Label) (x : Expansion) :
    CompressedStep → Expansion
  | .unknown => x.writeLabel db "?"
  | .mark => { x with saved := x.saved ++ x.blocks.head?.toList }
  | .number n =>
    match (thm.hypotheses ++ labels)[n - 1]? with
    | some l => x.writeLabel db l
    | none =>
      match x.saved[n - 1 - thm.hypotheses.length - labels.length]? with
      | some block => x.writeBlock block
      | none => x

end Expansion

/-- The labels that a compressed proof stands for. -/
def expansion (db : Database) (thm : Assertion) (labels : List Label)
    (steps : List CompressedStep) : List Label :=
  (steps.foldl (Expansion.step db thm labels) {}).written

/-! ## What a step leaves alone -/

namespace Database

variable {db : Database} {thm : Assertion}

theorem arity_of_assertion {l : Label} {a : Assertion} (ha : db.assertion? l = some a) :
    db.arity l = a.hypotheses.length := by
  rw [arity, ha]

theorem arity_of_assertion?_eq_none {l : Label} (ha : db.assertion? l = none) : db.arity l = 0 := by
  rw [arity, ha]

theorem Loaded.arity_unknown (hdb : db.Loaded) : db.arity "?" = 0 := by
  refine arity_of_assertion?_eq_none (Option.eq_none_iff_forall_ne_some.2 fun a ha => ?_)
  obtain ⟨hm, hl⟩ := hdb.wellFormed.assertion?_eq_some_iff.1 ha
  exact hdb.label_ne_unknown (List.mem_append_right _ (List.mem_map_of_mem hm)) hl

theorem Loaded.arity_hypothesis (hdb : db.Loaded) {l : Label} {h₀ : Hypothesis}
    (h : db.activeHypothesis? l = some h₀) : db.arity l = 0 := by
  refine arity_of_assertion?_eq_none (Option.eq_none_iff_forall_ne_some.2 fun a ha => ?_)
  rw [hdb.activeHypothesis?_of_assertion? ha] at h
  cases h

end Database

namespace Replay

variable {db : Database} {thm : Assertion} {r r' : Replay}

/-- What an application does depends only on the items that it takes. -/
theorem apply_local {a : Assertion} (h : r.apply db a = .ok r') :
    a.hypotheses.length ≤ r.stack.length ∧
      ∃ item, r' = { r with stack := item :: r.stack.drop a.hypotheses.length } ∧
        ∀ s b, (⟨r.stack.take a.hypotheses.length ++ s, b⟩ : Replay).apply db a =
          .ok ⟨item :: s, b⟩ := by
  obtain ⟨hn, hr⟩ := apply_eq_ok_iff.1 h
  have hlen : (r.stack.take a.hypotheses.length).length = a.hypotheses.length :=
    List.length_take_of_le hn
  refine ⟨hn, ?_⟩
  obtain ⟨hk, rfl⟩ | ⟨args, σ, e, hargs, hu, rfl⟩ := hr
  · refine ⟨none, rfl, fun s b => apply_eq_ok_iff.2 ⟨?_, .inl ⟨?_, ?_⟩⟩⟩
    · rw [List.length_append, hlen]
      exact Nat.le_add_right _ _
    · rw [List.take_left' hlen, hk]
    · rw [List.drop_left' hlen]
  · refine ⟨some e, rfl, fun s b => apply_eq_ok_iff.2 ⟨?_, .inr ⟨args, σ, e, ?_, hu, ?_⟩⟩⟩
    · rw [List.length_append, hlen]
      exact Nat.le_add_right _ _
    · rw [List.take_left' hlen, hargs]
    · rw [List.drop_left' hlen]

/-- What a step does depends only on the items that it takes, and the rest stays below. -/
theorem step_local (hdb : db.Loaded) {l : Label} (h : r.step db thm l = .ok r') :
    ∃ item, r' = ⟨item :: r.stack.drop (db.arity l), r.incomplete || l == "?"⟩ ∧
      ∀ s b, (⟨r.stack.take (db.arity l) ++ s, b⟩ : Replay).step db thm l =
        .ok ⟨item :: s, b || l == "?"⟩ := by
  obtain ⟨rfl, rfl⟩ | ⟨hu, ht, h₀, hh, rfl⟩ | ⟨hu, ht, hh, a, ha, happ⟩ := step_cases h
  · rw [hdb.arity_unknown]
    exact ⟨none, by simp [pushUnknown], fun s b => by simp [step_unknown, pushUnknown]⟩
  · rw [hdb.arity_hypothesis hh, beq_false_of_ne hu]
    refine ⟨some h₀.expr, by simp [push], fun s b => ?_⟩
    rw [step_of_hypothesis hu ht hh]
    simp [push]
  · rw [Database.arity_of_assertion ha, beq_false_of_ne hu]
    obtain ⟨-, item, rfl, hitem⟩ := apply_local happ
    refine ⟨item, by simp, fun s b => ?_⟩
    rw [step_of_assertion hu ht hh ha, hitem, Bool.or_false]

end Replay

/-! ## Lists of labels that rebuild an item -/

section Rebuild

variable {db : Database} {thm : Assertion}

/-- The labels push the item wherever they are replayed. If one of them is unknown, `b` holds. -/
structure Rebuilds (db : Database) (thm : Assertion) (b : Bool) (block : List Label)
    (item : Option Expr) : Prop where
  unknown : block.any (· == "?") → b
  run : ∀ taken r, runSteps (Replay.step db thm) taken r block =
    (⟨item :: r.stack, r.incomplete || block.any (· == "?")⟩, none)

theorem Rebuilds.mono {b b' : Bool} {block : List Label} {item : Option Expr} (hb : b → b')
    (h : Rebuilds db thm b block item) : Rebuilds db thm b' block item :=
  ⟨fun hu => hb (h.unknown hu), h.run⟩

/-- Lists that rebuild the items of a stack rebuild the stack, the lowest item first. -/
theorem Rebuilds.flatten {b : Bool} {blocks : List (List Label)} {items : List (Option Expr)}
    (h : List.Forall₂ (Rebuilds db thm b) blocks items) :
    (blocks.reverse.flatten.any (· == "?") → b) ∧
      ∀ taken r, runSteps (Replay.step db thm) taken r blocks.reverse.flatten =
        (⟨items ++ r.stack, r.incomplete || blocks.reverse.flatten.any (· == "?")⟩, none) := by
  induction h with
  | nil => exact ⟨by simp, fun taken r => by simp [runSteps]⟩
  | @cons block item blocks items hb _ ih =>
    -- the head is the top item, which is produced last
    rw [List.reverse_cons, List.flatten_concat, List.any_append]
    refine ⟨fun hu => ?_, fun taken r => ?_⟩
    · rw [Bool.or_eq_true] at hu
      exact hu.elim ih.1 hb.unknown
    · rw [runSteps_append_of_eq (ih.2 taken r), hb.run, Bool.or_assoc]
      rfl

/-- A label rebuilds what it produces, after the labels that rebuild its arguments. -/
theorem Rebuilds.label (hdb : db.Loaded) {b : Bool} {blocks : List (List Label)} {r r' : Replay}
    {l : Label} (h : List.Forall₂ (Rebuilds db thm b) blocks r.stack)
    (hs : r.step db thm l = .ok r') :
    ∃ item, r'.stack = item :: r.stack.drop (db.arity l) ∧
      Rebuilds db thm (b || l == "?") ((blocks.take (db.arity l)).reverse.flatten ++ [l]) item := by
  obtain ⟨item, rfl, hitem⟩ := Replay.step_local hdb hs
  obtain ⟨hu, hrun⟩ := Rebuilds.flatten (List.forall₂_take (db.arity l) h)
  refine ⟨item, rfl, fun hu' => ?_, fun taken r₁ => ?_⟩
  · rw [List.any_append, Bool.or_eq_true] at hu'
    rw [Bool.or_eq_true]
    exact hu'.imp hu (by simp)
  · rw [runSteps_append_of_eq (hrun taken r₁), runSteps, hitem]
    simp [runSteps, Bool.or_assoc]

/-- The expansion keeps up with the compressed replay. -/
structure Tracks (db : Database) (thm : Assertion) (x : Expansion) (c : CompressedReplay) :
    Prop where
  run : runSteps (Replay.step db thm) 0 {} x.written = (c.replay, none)
  blocks : List.Forall₂ (Rebuilds db thm c.replay.incomplete) x.blocks c.replay.stack
  saved : List.Forall₂ (Rebuilds db thm c.replay.incomplete) x.saved c.saved

variable {x : Expansion} {c c' : CompressedReplay}

theorem Tracks.writeLabel (hdb : db.Loaded) (h : Tracks db thm x c) {l : Label} {r : Replay}
    (hs : c.replay.step db thm l = .ok r) :
    Tracks db thm (x.writeLabel db l) { c with replay := r } := by
  obtain ⟨item, hstack, hitem⟩ := Rebuilds.label hdb h.blocks hs
  obtain ⟨_, rfl, -⟩ := Replay.step_local hdb hs
  have hmono : ∀ block item, Rebuilds db thm c.replay.incomplete block item →
      Rebuilds db thm (c.replay.incomplete || l == "?") block item := fun _ _ hb =>
    hb.mono (Bool.or_eq_true_iff.2 ∘ .inl)
  refine ⟨?_, ?_, h.saved.imp hmono⟩
  · rw [Expansion.written_writeLabel, runSteps_append_of_eq h.run, runSteps, hs]
    rfl
  · rw [hstack]
    exact .cons hitem ((List.forall₂_drop _ h.blocks).imp hmono)

theorem Tracks.writeBlock (h : Tracks db thm x c) {block : List Label} {item : Option Expr}
    (hb : Rebuilds db thm c.replay.incomplete block item) :
    Tracks db thm (x.writeBlock block) { c with replay := c.replay.push item } := by
  refine ⟨?_, .cons hb h.blocks, h.saved⟩
  have hflag : (c.replay.incomplete || block.any (· == "?")) = c.replay.incomplete :=
    Bool.or_eq_left_iff_imp.2 hb.unknown
  rw [Expansion.written_writeBlock, runSteps_append_of_eq h.run, hb.run, hflag]
  rfl

theorem Tracks.mark (h : Tracks db thm x c) {item : Option Expr} {items : List (Option Expr)}
    (hs : c.replay.stack = item :: items) :
    Tracks db thm { x with saved := x.saved ++ x.blocks.head?.toList }
      { c with saved := c.saved ++ [item] } := by
  refine ⟨h.run, h.blocks, ?_⟩
  have hblocks := h.blocks
  rw [hs] at hblocks
  obtain ⟨block, blocks, hb, -, hx⟩ := List.forall₂_cons_right_iff.1 hblocks
  rw [hx]
  exact List.rel_append h.saved (.cons hb .nil)

theorem Tracks.exists_saved (h : Tracks db thm x c) {i : Nat} {item : Option Expr}
    (hi : c.saved[i]? = some item) :
    ∃ block, x.saved[i]? = some block ∧ Rebuilds db thm c.replay.incomplete block item := by
  obtain ⟨hlt, rfl⟩ := List.getElem?_eq_some_iff.1 hi
  obtain ⟨hlen, hget⟩ := List.forall₂_iff_get.1 h.saved
  have hlt' : i < x.saved.length := by omega
  exact ⟨x.saved[i], List.getElem?_eq_getElem hlt', hget i hlt' hlt⟩

variable {labels : List Label}

theorem Tracks.step (hdb : db.Loaded) (hthm : thm ∈ db.assertions)
    (hactive : ∀ l ∈ thm.hypotheses, (db.activeHypothesis? l).isSome) (h : Tracks db thm x c)
    {s : CompressedStep} (hs : c.step db thm labels s = .ok c') :
    Tracks db thm (x.step db thm labels s) c' := by
  cases s with
  | unknown =>
    obtain rfl := Except.ok.inj hs
    exact h.writeLabel hdb Replay.step_unknown
  | mark =>
    rw [CompressedReplay.step] at hs
    split at hs
    · cases hs
    · obtain rfl := Except.ok.inj hs
      exact h.mark ‹_›
  | number n =>
    rw [Expansion.step]
    cases hl : (thm.hypotheses ++ labels)[n - 1]? with
    | some l =>
      rw [CompressedReplay.step_number_of_label hdb hthm hactive c hl] at hs
      obtain ⟨r, hr, rfl⟩ := map_eq_ok_iff.1 hs
      exact h.writeLabel hdb hr
    | none =>
      obtain ⟨item, hitem, rfl⟩ := (CompressedReplay.step_number_eq_ok_iff_of_saved hl).1 hs
      obtain ⟨block, hblock, hb⟩ := h.exists_saved hitem
      rw [hblock]
      exact h.writeBlock hb

theorem Tracks.foldl (hdb : db.Loaded) (hthm : thm ∈ db.assertions)
    (hactive : ∀ l ∈ thm.hypotheses, (db.activeHypothesis? l).isSome) (h : Tracks db thm x c)
    {steps : List CompressedStep} {taken : Nat}
    (hs : runSteps (CompressedReplay.step db thm labels) taken c steps = (c', none)) :
    Tracks db thm (steps.foldl (Expansion.step db thm labels) x) c' := by
  induction steps generalizing x c taken with
  | nil =>
    obtain ⟨rfl, -⟩ := Prod.mk.inj hs
    exact h
  | cons s steps ih =>
    obtain ⟨c₁, hc₁, hs'⟩ := runSteps_cons_eq_none_iff.1 hs
    exact ih (h.step hdb hthm hactive hc₁) hs'

end Rebuild

/-- A compressed proof that is accepted expands to a normal proof that is accepted in the same way
and ends with the same stack. -/
theorem checkNormal_expansion {db : Database} {thm : Assertion} (hdb : db.Loaded)
    (hthm : thm ∈ db.assertions)
    (hactive : ∀ l ∈ thm.hypotheses, (db.activeHypothesis? l).isSome) {labels : List Label}
    {letters : Bytes} {b : Bool} (h : checkCompressed db thm labels letters = ⟨b, none⟩) :
    ∃ steps, decodeLetters letters = .ok steps ∧
      checkNormal db thm (expansion db thm labels steps) = ⟨b, none⟩ ∧
      (runSteps (Replay.step db thm) 0 {} (expansion db thm labels steps)).1.stack =
        (runSteps (CompressedReplay.step db thm labels) 0 {} steps).1.replay.stack := by
  rw [checkCompressed] at h
  split at h
  · cases h
  · rename_i steps hsteps
    obtain ⟨hnone, hfinish, hb⟩ := Replay.verdict_eq_accepted_iff.1 h
    have hstart : Tracks db thm {} {} := ⟨rfl, .nil, .nil⟩
    have htracks := hstart.foldl hdb hthm hactive (Prod.ext rfl hnone)
    refine ⟨steps, hsteps, ?_, ?_⟩
    · rw [checkNormal, expansion, htracks.run]
      exact Replay.verdict_eq_accepted_iff.2 ⟨rfl, hfinish, hb⟩
    · rw [expansion, htracks.run]

theorem twice_expands : Sample.db.Loaded ∧ Sample.twice ∈ Sample.db.assertions ∧
    (∀ l ∈ Sample.twice.hypotheses, (Sample.db.activeHypothesis? l).isSome) ∧
    checkCompressed Sample.db Sample.twice ["wi", "once", "again"] (utf8 "BADZBGABCEFE") =
      ⟨false, none⟩ ∧
    ∃ steps, decodeLetters (utf8 "BADZBGABCEFE") = .ok steps ∧
      checkNormal Sample.db Sample.twice
        (expansion Sample.db Sample.twice ["wi", "once", "again"] steps) = ⟨false, none⟩ ∧
      (runSteps (Replay.step Sample.db Sample.twice) 0 {}
          (expansion Sample.db Sample.twice ["wi", "once", "again"] steps)).1.stack =
        (runSteps (CompressedReplay.step Sample.db Sample.twice ["wi", "once", "again"]) 0 {}
          steps).1.replay.stack := by
  have hmem : Sample.twice ∈ Sample.db.assertions := by decide
  have hactive : ∀ l ∈ Sample.twice.hypotheses, (Sample.db.activeHypothesis? l).isSome := by decide
  have haccepted : checkCompressed Sample.db Sample.twice ["wi", "once", "again"]
      (utf8 "BADZBGABCEFE") = ⟨false, none⟩ := by decide +kernel
  exact ⟨Sample.loaded, hmem, hactive, haccepted,
    checkNormal_expansion Sample.loaded hmem hactive haccepted⟩

end Metamath
