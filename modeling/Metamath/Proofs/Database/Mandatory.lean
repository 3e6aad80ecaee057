import Metamath.Proofs.Database.Coherence
import Metamath.Proofs.Database.Stability
import Metamath.Proofs.Text.Order

/-!
# Mandatory frames

`Database.IsFrame` says what the frame of an assertion is, in terms of what can be asked about a
database: which hypotheses are active, which variables are disjoint. The frame that an assertion gets
when it is declared is this one (`addAssertion_isFrame`). Nothing in it depends on the order of the
variables in a `$d` statement, and more than that: declarations that differ in this order alone
(`Declaration.Reordered`) lead to the same database (`attemptAll_reordered`).
-/

namespace Metamath

theorem nodup_eraseDups {α : Type} [BEq α] [LawfulBEq α] (l : List α) : l.eraseDups.Nodup := by
  cases l with
  | nil => exact List.nodup_nil
  | cons a l =>
    rw [List.eraseDups_cons, List.nodup_cons]
    exact ⟨by simp, nodup_eraseDups _⟩
termination_by l.length
decreasing_by exact Nat.lt_succ_of_le (List.length_filter_le _ _)

theorem active_sublist (history : List Declaration) : (active history).Sublist history := by
  induction history with
  | nil => exact .slnil
  | cons d later ih =>
    rw [active]
    split_ifs
    · exact ih.cons_cons d
    · exact ih.cons d

namespace Database

variable {db db' : Database} {e : Expr} {a : Assertion}

/-! ## Frames by what can be asked -/

/-- A variable of an expression or of an active essential hypothesis. -/
def InUse (db : Database) (e : Expr) (v : Symbol) : Prop :=
  db.isVariable v ∧ (v ∈ e ∨
    ∃ l e', db.activeHypothesis? l = some (.essential l e') ∧ v ∈ e')

/-- The frame of an assertion of an expression, in a database with a history. -/
structure IsFrame (db : Database) (history : List Declaration) (e : Expr) (a : Assertion) :
    Prop where
  /-- The hypotheses stand in the order of declaration. -/
  sublist_hypotheses : a.hypotheses.Sublist
    ((history.filterMap Declaration.hypothesis?).map Hypothesis.label)
  nodup_hypotheses : a.hypotheses.Nodup
  /-- They are the essential ones and those of variables in use. -/
  mem_hypotheses_iff : ∀ l, l ∈ a.hypotheses ↔
    (∃ e', db.activeHypothesis? l = some (.essential l e')) ∨
      ∃ typecode v, db.activeHypothesis? l = some (.floating l typecode v) ∧ db.InUse e v
  nodup_disjoint : a.disjoint.Nodup
  /-- A pair is made of disjoint variables in use, the one with the lesser bytes first. -/
  mem_disjoint_iff : ∀ x y, ⟨x, y⟩ ∈ a.disjoint ↔
    utf8 x < utf8 y ∧ db.InUse e x ∧ db.InUse e y ∧ db.isDisjoint x y

theorem WellFormed.mem_mandatoryVariables_iff (hw : db.WellFormed) {v : Symbol} :
    v ∈ db.mandatoryVariables e ↔ db.InUse e v := by
  have hactive : ∀ l e', db.activeHypothesis? l = some (.essential l e') ↔
      .essential l e' ∈ db.activeHypotheses := fun l e' =>
    hw.activeHypothesis?_eq_some_iff.trans (and_iff_left rfl)
  simp only [Database.mem_mandatoryVariables_iff, InUse, hactive, isVariable_iff]

theorem isDisjoint_of_mem_mandatoryPairs {used : List Symbol} {x y : Symbol} (hne : x ≠ y)
    (h : ⟨x, y⟩ ∈ db.mandatoryPairs used) : db.isDisjoint x y := by
  simp only [mandatoryPairs, List.mem_eraseDups, List.mem_flatMap] at h
  obtain ⟨group, hgroup, hpair⟩ := h
  obtain ⟨hx, hy⟩ := mem_of_mem_pairsOf hpair
  exact isDisjoint_iff.2 ⟨hne, group, List.mem_flatMap.2 hgroup, List.mem_of_mem_filter hx,
    List.mem_of_mem_filter hy⟩

/-- The pairs are those of the used variables that are disjoint, each the right way round. -/
theorem Layered.mem_mandatoryPairs_iff (hy : db.Layered) {used : List Symbol} {x y : Symbol} :
    ⟨x, y⟩ ∈ db.mandatoryPairs used ↔ x < y ∧ x ∈ used ∧ y ∈ used ∧ db.isDisjoint x y := by
  constructor
  · intro h
    have hlt : x < y := hy.lt_of_mem_mandatoryPairs h
    obtain ⟨hx, hy'⟩ := mem_used_of_mem_mandatoryPairs h
    exact ⟨hlt, hx, hy', isDisjoint_of_mem_mandatoryPairs (Std.ne_of_lt hlt) h⟩
  · rintro ⟨hlt, hx, hy', hd⟩
    refine (pair_mem_mandatoryPairs hd hx hy').resolve_right fun h => ?_
    exact String.lt_asymm hlt (hy.lt_of_mem_mandatoryPairs h)

/-- The labels of the mandatory hypotheses. -/
theorem WellFormed.mem_frame_hypotheses_iff (hw : db.WellFormed) {l m : Label}
    {kind : AssertionKind} :
    m ∈ (db.frame l kind e).hypotheses ↔
      (∃ e', db.activeHypothesis? m = some (.essential m e')) ∨
        ∃ typecode v, db.activeHypothesis? m = some (.floating m typecode v) ∧ db.InUse e v := by
  simp only [frame, List.mem_map, hw.activeHypothesis?_eq_some_iff, ← hw.mem_mandatoryVariables_iff]
  constructor
  · rintro ⟨h, hh, rfl⟩
    cases h with
    | floating m typecode v =>
      obtain ⟨hactive, hv⟩ := floating_mem_mandatoryHypotheses_iff.1 hh
      exact .inr ⟨typecode, v, ⟨hactive, rfl⟩, hv⟩
    | essential m e' => exact .inl ⟨e', essential_mem_mandatoryHypotheses_iff.1 hh, rfl⟩
  · rintro (⟨e', hactive, -⟩ | ⟨typecode, v, ⟨hactive, -⟩, hv⟩)
    · exact ⟨_, essential_mem_mandatoryHypotheses_iff.2 hactive, rfl⟩
    · exact ⟨_, floating_mem_mandatoryHypotheses_iff.2 ⟨hactive, hv⟩, rfl⟩

theorem isFrame_frame (ds : List Declaration) (l : Label) (kind : AssertionKind) (e : Expr) :
    (({} : Database).attemptAll ds).IsFrame (({} : Database).accepted ds) e
      ((({} : Database).attemptAll ds).frame l kind e) := by
  have hw := wellFormed_attemptAll ds
  have hy := layered_attemptAll ds
  have hactive : (({} : Database).attemptAll ds).activeHypotheses =
      (active (({} : Database).accepted ds)).filterMap Declaration.hypothesis? :=
    flatMap_scopes_attemptAll Scope.hypotheses Declaration.hypothesis? rfl Scope.hypotheses_add ds
  have hsublist := mandatoryHypotheses_sublist (({} : Database).attemptAll ds)
    ((({} : Database).attemptAll ds).mandatoryVariables e)
  exact
    { sublist_hypotheses := by
        rw [hactive] at hsublist
        exact (hsublist.trans ((active_sublist _).filterMap _)).map _
      nodup_hypotheses := hw.nodup_active.sublist (hsublist.map _)
      mem_hypotheses_iff := fun m => hw.mem_frame_hypotheses_iff
      nodup_disjoint := nodup_eraseDups _
      mem_disjoint_iff := by
        intro x y
        rw [utf8_lt_iff, ← hw.mem_mandatoryVariables_iff, ← hw.mem_mandatoryVariables_iff]
        exact hy.mem_mandatoryPairs_iff }

end Database

/-! ## The order of the variables of a group -/

/-- Declarations that are equal up to the order of the variables of a group. -/
inductive Declaration.Reordered : Declaration → Declaration → Prop
  | refl (d : Declaration) : Reordered d d
  | disjoint {vs ws : List Symbol} (h : vs.Perm ws) : Reordered (.disjoint vs) (.disjoint ws)

theorem sortSymbols_eq_of_perm {vs ws : List Symbol} (hn : vs.Nodup) (h : vs.Perm ws) :
    sortSymbols vs = sortSymbols ws := by
  refine List.Perm.eq_of_pairwise (fun u v _ _ huv hvu => absurd hvu (String.lt_asymm huv))
    (pairwise_sortSymbols hn) (pairwise_sortSymbols (h.nodup_iff.1 hn)) ?_
  exact (sortSymbols_perm vs).trans (h.trans (sortSymbols_perm ws).symm)

namespace Database

variable {db db' : Database} {vs ws : List Symbol}

theorem addDisjoint_of_perm (h : vs.Perm ws) (hd : db.addDisjoint vs = .ok db') :
    db.addDisjoint ws = .ok db' := by
  obtain ⟨hactive, hn, hlen, rfl⟩ := addDisjoint_eq_ok_iff.1 hd
  refine addDisjoint_eq_ok_iff.2 ⟨fun v hv => hactive v (h.mem_iff.2 hv), h.nodup_iff.1 hn, ?_, ?_⟩
  · rwa [← h.length_eq]
  · rw [sortSymbols_eq_of_perm hn h]

theorem attempt_reordered {d d' : Declaration} (h : d.Reordered d') (db : Database) :
    db.attempt d = db.attempt d' := by
  cases h with
  | refl => rfl
  | @disjoint vs ws h =>
    cases hd : db.declare (.disjoint vs) with
    | ok db' => rw [attempt_of_ok hd, attempt_of_ok (d := .disjoint ws) (addDisjoint_of_perm h hd)]
    | error err =>
      cases hd' : db.declare (.disjoint ws) with
      | ok db' => cases hd.symm.trans (addDisjoint_of_perm h.symm hd')
      | error err' => rw [attempt_of_error hd, attempt_of_error hd']

/-- The order of the variables in groups leaves no trace. -/
theorem attemptAll_reordered {ds ds' : List Declaration}
    (h : List.Forall₂ Declaration.Reordered ds ds') (db : Database) :
    db.attemptAll ds = db.attemptAll ds' := by
  induction h generalizing db with
  | nil => rfl
  | cons hd _ ih => rw [attemptAll_cons, attemptAll_cons, attempt_reordered hd, ih]

/-- Whatever declarations were tried, an assertion that is accepted is recorded with its frame, and
with the same one if the variables of groups had been given in another order. -/
theorem addAssertion_isFrame (ds : List Declaration) {l : Label} {kind : AssertionKind} {e : Expr}
    {a : Assertion} (h : (({} : Database).attemptAll ds).addAssertion l kind e = .ok (db', a)) :
    db'.assertion? l = some a ∧ a.label = l ∧ a.kind = kind ∧ a.expr = e ∧
      (({} : Database).attemptAll ds).IsFrame (({} : Database).accepted ds) e a ∧
      ∀ ds', List.Forall₂ Declaration.Reordered ds ds' →
        (({} : Database).attemptAll ds').addAssertion l kind e = .ok (db', a) := by
  obtain ⟨-, -, rfl, hdb'⟩ := addAssertion_eq_ok_iff.1 h
  refine ⟨?_, rfl, rfl, rfl, isFrame_frame ds l kind e, fun ds' hds => ?_⟩
  · have hw := (wellFormed_attemptAll ds).addAssertion h
    refine hw.assertion?_eq_some_iff.2 ⟨?_, rfl⟩
    rw [hdb']
    exact List.mem_cons_self
  · rw [← attemptAll_reordered hds]
    exact h

end Database

namespace Sample

/-- Two groups in nested blocks, around a hypothesis. -/
def grouped (outer inner : List Symbol) : List Declaration :=
  [.constant "wff", .constant "|-", .var "z", .var "x", .var "y", .floating "wz" "wff" "z",
    .floating "wx" "wff" "x", .floating "wy" "wff" "y", .openScope] ++ .disjoint outer ::
  ([.essential "min" ["|-", "x"], .openScope, .var "u", .floating "wu" "wff" "u"] ++
    [.disjoint inner])

theorem grouped_reordered {outer outer' inner inner' : List Symbol} (ho : outer.Perm outer')
    (hi : inner.Perm inner') :
    List.Forall₂ Declaration.Reordered (grouped outer inner) (grouped outer' inner') := by
  have hrefl : ∀ ds, List.Forall₂ Declaration.Reordered ds ds := fun ds =>
    List.forall₂_same.2 fun d _ => .refl d
  exact List.rel_append (hrefl _) (.cons (.disjoint ho)
    (List.rel_append (hrefl _) (.cons (.disjoint hi) .nil)))

end Sample

/-- Only `x` and `z` are in use. Both groups name them, and they make one pair. -/
theorem Database.grouped_isFrame :
    let a : Assertion := ⟨"rule", .axiomatic, ["wz", "wx", "min"], [⟨"x", "z"⟩], ["|-", "z"]⟩
    let ds := Sample.grouped ["z", "x"] ["u", "z", "y", "x"]
    ∃ db', (({} : Database).attemptAll ds).addAssertion "rule" .axiomatic ["|-", "z"] =
        .ok (db', a) ∧
      (({} : Database).attemptAll ds).IsFrame (({} : Database).accepted ds) ["|-", "z"] a ∧
      (({} : Database).attemptAll
        (Sample.grouped ["x", "z"] ["x", "y", "z", "u"])).addAssertion "rule" .axiomatic
          ["|-", "z"] = .ok (db', a) := by
  intro a ds
  have h : ((({} : Database).attemptAll ds).addAssertion "rule" .axiomatic
      ["|-", "z"]).toOption.map Prod.snd = some a := by decide +kernel
  obtain ⟨⟨db', a'⟩, hok, rfl⟩ := Option.map_eq_some_iff.1 h
  rw [toOption_eq_some_iff] at hok
  obtain ⟨-, -, -, -, hframe, hreordered⟩ := addAssertion_isFrame ds hok
  exact ⟨db', hok, hframe, hreordered _ (Sample.grouped_reordered (by decide) (by decide))⟩

end Metamath
