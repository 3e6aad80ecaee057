import Metamath.Proofs.Database.Coherence

/-!
# Frames for ever

An assertion is read long after the scopes in which it was declared have closed. `ClosedFrame` says
that the labels it lists still make sense then: they bind every variable that it mentions, once and
before the variable is used. Every assertion of a database came from one declaration
(`exists_declaration_of_mem`), and `closedFrame_of_declaration` carries what held there to all later
databases.
-/

namespace Metamath

/-! ## Places of floating hypotheses -/

/-- A variable has one place among hypotheses that bind no variable twice. -/
theorem index_eq_of_subject {hs : List Hypothesis} (hn : (subjects hs).Nodup) {i j : Nat}
    {h h' : Hypothesis} {v : Symbol} (hi : hs[i]? = some h) (hj : hs[j]? = some h')
    (hv : h.subject? = some v) (hv' : h'.subject? = some v) : i = j := by
  induction hs generalizing i j with
  | nil => cases hi
  | cons h₀ hs ih =>
    have hrest : (subjects hs).Nodup := by
      cases h₀ with
      | floating l typecode u => exact (List.nodup_cons.1 hn).2
      | essential l e => exact hn
    -- the first hypothesis is about no variable that a later one is about
    have hhead : ∀ {k : Nat} {h₁ : Hypothesis}, h₀.subject? = some v → hs[k]? = some h₁ →
        h₁.subject? ≠ some v := by
      intro k h₁ h₀v hk h₁v
      cases h₀ with
      | floating l typecode u =>
        obtain rfl : u = v := Option.some.inj h₀v
        refine (List.nodup_cons.1 hn).1 ?_
        exact List.mem_filterMap.2 ⟨h₁, List.mem_of_getElem? hk, h₁v⟩
      | essential l e => cases h₀v
    cases i with
    | zero =>
      obtain rfl : h₀ = h := Option.some.inj hi
      cases j with
      | zero => rfl
      | succ j => exact absurd hv' (hhead hv hj)
    | succ i =>
      cases j with
      | zero =>
        obtain rfl : h₀ = h' := Option.some.inj hj
        exact absurd hv (hhead hv' hi)
      | succ j => exact congrArg (· + 1) (ih hrest hi hj)

/-- The variables that an essential hypothesis uses are bound before it. -/
theorem WellScoped.exists_index_lt {constants : List Symbol} {hs : List Hypothesis}
    (hw : WellScoped constants [] hs) {j : Nat} {l : Label} {e : Expr}
    (hj : hs[j]? = some (.essential l e)) {v : Symbol} (hv : v ∈ e) (hc : v ∉ constants) :
    ∃ i < j, ∃ h, hs[i]? = some h ∧ h.subject? = some v := by
  obtain ⟨hlt, he⟩ := List.getElem?_eq_some_iff.1 hj
  have hsplit : hs = hs.take j ++ .essential l e :: hs.drop (j + 1) := by
    rw [← he, ← List.drop_eq_getElem_cons hlt, List.take_append_drop]
  rw [hsplit] at hw
  obtain ⟨-, hover, -⟩ := append_iff.1 hw
  rw [List.append_nil] at hover
  obtain ⟨h, hh, hs'⟩ := List.mem_filterMap.1 ((hover.mem hv).resolve_left hc)
  obtain ⟨i, hi⟩ := List.mem_iff_getElem?.1 hh
  have hij : i < j := by
    have := (List.getElem?_eq_some_iff.1 hi).1
    rw [List.length_take] at this
    omega
  rw [List.getElem?_take_of_lt hij] at hi
  exact ⟨i, hij, h, hi, hs'⟩

/-! ## Closed frames -/

namespace Database

variable {db db' : Database} {a : Assertion}

/-- A variable stands in the statement of an assertion, in an essential hypothesis of it or in a
disjoint pair. -/
def Mentions (db : Database) (a : Assertion) (v : Symbol) : Prop :=
  (db.isVariable v ∧ (v ∈ a.expr ∨
    ∃ l e, l ∈ a.hypotheses ∧ db.hypothesis? l = some (.essential l e) ∧ v ∈ e)) ∨
  ∃ p ∈ a.disjoint, v = p.x ∨ v = p.y

/-- The labels of an assertion, looked up in a database, bind what the assertion mentions. -/
structure ClosedFrame (db : Database) (a : Assertion) : Prop where
  nodup_hypotheses : a.hypotheses.Nodup
  /-- One floating hypothesis binds each variable. -/
  binds : ∀ v, db.Mentions a v → ∃! l, l ∈ a.hypotheses ∧
    ∃ typecode, db.hypothesis? l = some (.floating l typecode v)
  /-- It stands before the essential hypotheses that use the variable. -/
  binds_before : ∀ (i j : Nat) l l' typecode v e, a.hypotheses[i]? = some l →
    db.hypothesis? l = some (.floating l typecode v) → a.hypotheses[j]? = some l' →
    db.hypothesis? l' = some (.essential l' e) → v ∈ e → i < j
  lt_of_disjoint : ∀ p ∈ a.disjoint, p.x < p.y

theorem WellFormed.label_of_hypothesis? (hw : db.WellFormed) {l : Label} {h : Hypothesis}
    (hl : db.hypothesis? l = some h) : h.label = l :=
  (hw.hypothesis?_eq_some_iff.1 hl).2

/-- A label of a frame and its record have the same place. -/
theorem Framed.getElem?_eq {hs : List Hypothesis} (hf : db.Framed a hs) {i : Nat} {l : Label}
    {h : Hypothesis} (hi : a.hypotheses[i]? = some l) (hl : db.hypothesis? l = some h) :
    hs[i]? = some h := by
  have hr := congrArg (·[i]?) hf.records
  simp only [List.getElem?_map, hi, Option.map_some, hl] at hr
  obtain ⟨h', hh, he⟩ := Option.map_eq_some_iff.1 hr.symm
  rw [hh, Option.some.inj he]

theorem Framed.mem_of_hypothesis? {hs : List Hypothesis} (hf : db.Framed a hs) {l : Label}
    {h : Hypothesis} (hm : l ∈ a.hypotheses) (hl : db.hypothesis? l = some h) : h ∈ hs := by
  obtain ⟨i, hi⟩ := List.mem_iff_getElem?.1 hm
  exact List.mem_of_getElem? (hf.getElem?_eq hi hl)

theorem Framed.exists_label {hs : List Hypothesis} (hf : db.Framed a hs) {h : Hypothesis}
    (hh : h ∈ hs) : ∃ l ∈ a.hypotheses, db.hypothesis? l = some h := by
  have hm : some h ∈ a.hypotheses.map db.hypothesis? := by
    rw [hf.records]
    exact List.mem_map_of_mem hh
  exact List.mem_map.1 hm

/-- What an assertion mentions, its frame binds. -/
theorem Framed.mem_subjects_of_mentions {hs : List Hypothesis} (hf : db.Framed a hs)
    (hw : db.WellFormed) {v : Symbol} (hv : db.Mentions a v) : v ∈ subjects hs := by
  rcases hv with ⟨hvar, hv⟩ | ⟨p, hp, hv⟩
  · have hc : v ∉ db.constants := fun hc => hw.disjoint_symbols hc (isVariable_iff.1 hvar)
    rcases hv with hv | ⟨l, e, hl, he, hv⟩
    · exact (hf.expr_over.mem hv).resolve_left hc
    · exact ((hf.wellScoped.expr_over (hf.mem_of_hypothesis? hl he)).mem hv).resolve_left hc
  · obtain ⟨hx, hy⟩ := hf.disjoint_mem p hp
    rcases hv with rfl | rfl
    · exact hx
    · exact hy

theorem Framed.closedFrame {hs : List Hypothesis} (hf : db.Framed a hs) (hw : db.WellFormed)
    (hn : a.hypotheses.Nodup) (hlt : ∀ p ∈ a.disjoint, p.x < p.y) : db.ClosedFrame a where
  nodup_hypotheses := hn
  binds := by
    intro v hv
    obtain ⟨l, typecode, hh⟩ := mem_subjects_iff.1 (hf.mem_subjects_of_mentions hw hv)
    obtain ⟨l', hl, he⟩ := hf.exists_label hh
    obtain rfl : l = l' := hw.label_of_hypothesis? he
    refine ⟨l, ⟨hl, typecode, he⟩, ?_⟩
    rintro m ⟨hm, typecode', he'⟩
    -- both hypotheses are about the variable, so they stand in the same place
    obtain ⟨i, hi⟩ := List.mem_iff_getElem?.1 hl
    obtain ⟨j, hj⟩ := List.mem_iff_getElem?.1 hm
    have hij : i = j := index_eq_of_subject hf.nodup_subjects (hf.getElem?_eq hi he)
      (hf.getElem?_eq hj he') rfl rfl
    rw [hij, hj] at hi
    exact Option.some.inj hi
  binds_before := by
    intro i j l l' typecode v e hi hl hj hl' hv
    have hfi := hf.getElem?_eq hi hl
    have hvar : v ∈ db.vars :=
      hf.subjects_subset (mem_subjects_iff.2 ⟨l, typecode, List.mem_of_getElem? hfi⟩)
    obtain ⟨i', hij, h, hi', hs⟩ := hf.wellScoped.exists_index_lt (hf.getElem?_eq hj hl') hv
      fun hc => hw.disjoint_symbols hc hvar
    rwa [index_eq_of_subject hf.nodup_subjects hfi hi' rfl hs]
  lt_of_disjoint := hlt

/-! ## Where assertions come from -/

/-- A declaration that records an assertion is a declaration of one. -/
theorem exists_of_assertion? {d : Declaration} (h : d.assertion? db = some a) :
    ∃ l kind e, d = .assertion l kind e ∧ a = db.frame l kind e := by
  cases d with
  | assertion l kind e => exact ⟨l, kind, e, rfl, (Option.some.inj h).symm⟩
  | _ => cases h

/-- Every assertion that attempts add comes from one of them. -/
theorem exists_declaration_of_mem {ds : List Declaration} (ha : a ∈ (db.attemptAll ds).assertions)
    (hn : a ∉ db.assertions) :
    ∃ before l kind e after db₀, ds = before ++ .assertion l kind e :: after ∧
      (db.attemptAll before).addAssertion l kind e = .ok (db₀, a) ∧
      db₀.attemptAll after = db.attemptAll ds := by
  induction ds generalizing db with
  | nil => exact absurd ha hn
  | cons d ds ih =>
    by_cases hd : a ∈ (db.attempt d).assertions
    · cases hdecl : db.declare d with
      | error e =>
        rw [attempt_of_error hdecl] at hd
        exact absurd hd hn
      | ok db' =>
        rw [attempt_of_ok hdecl, (tables_of_declare hdecl).2.2.2, List.mem_append] at hd
        obtain ⟨l, kind, e, rfl, hframe⟩ :=
          exists_of_assertion? (Option.mem_toList.1 (hd.resolve_right hn))
        obtain ⟨⟨db₁, a'⟩, hadd, rfl⟩ := map_eq_ok_iff.1 hdecl
        obtain rfl : a' = a := (addAssertion_eq_ok_iff.1 hadd).2.2.1.trans hframe.symm
        refine ⟨[], l, kind, e, ds, db₁, rfl, hadd, ?_⟩
        rw [attemptAll_cons, attempt_of_ok hdecl]
    · obtain ⟨before, l, kind, e, after, db₀, rfl, hadd, hlast⟩ := ih ha hd
      exact ⟨d :: before, l, kind, e, after, db₀, rfl, hadd, hlast⟩

theorem Layered.lt_of_mem_mandatoryPairs (hy : db.Layered) {used : List Symbol} {p : DisjointPair}
    (hp : p ∈ db.mandatoryPairs used) : p.x < p.y := by
  simp only [mandatoryPairs, List.mem_eraseDups, List.mem_flatMap] at hp
  obtain ⟨group, ⟨s, hs, hg⟩, hp⟩ := hp
  obtain ⟨-, hsorted, -⟩ := (hy.isActiveVariable hs).2 group hg
  exact lt_of_mem_pairsOf (hsorted.filter _) hp

/-- The frame that an assertion got is closed in every later database. -/
theorem closedFrame_of_declaration (hw : db.WellFormed) (hy : db.Layered) {l : Label}
    {kind : AssertionKind} {e : Expr} {db₀ : Database} (ha : db.addAssertion l kind e = .ok (db₀, a))
    (hx : db₀.Extends db') (hw' : db'.WellFormed) : db'.ClosedFrame a := by
  obtain ⟨-, -, hframe, -⟩ := addAssertion_eq_ok_iff.1 ha
  have hx₀ : db.Extends db₀ :=
    extends_of_declare (d := .assertion l kind e) (map_eq_ok_iff.2 ⟨_, ha, rfl⟩)
  have hf := (hx₀.trans hx).framed hw' (hw.framed_frame l kind (hw.over_of_addAssertion ha))
  rw [hframe]
  refine hf.closedFrame hw' ?_ fun p hp => hy.lt_of_mem_mandatoryPairs hp
  exact hw.nodup_active.sublist ((db.mandatoryHypotheses_sublist _).map _)

/-- Whatever declarations were tried, each assertion was declared by one of them, its labels name the
records that they named then, and its frame is closed. -/
theorem frame_stable (ds : List Declaration) (ha : a ∈ (({} : Database).attemptAll ds).assertions) :
    ∃ before l kind e after db₀, ds = before ++ .assertion l kind e :: after ∧
      (({} : Database).attemptAll before).addAssertion l kind e = .ok (db₀, a) ∧
      (∀ m ∈ a.hypotheses, ∃ h, db₀.hypothesis? m = some h ∧
        (({} : Database).attemptAll ds).hypothesis? m = some h) ∧
      (({} : Database).attemptAll ds).ClosedFrame a := by
  obtain ⟨before, l, kind, e, after, db₀, hsplit, hadd, hlast⟩ :=
    exists_declaration_of_mem ha List.not_mem_nil
  have hw := wellFormed_attemptAll before
  have hw' := wellFormed_attemptAll ds
  have hx : db₀.Extends (({} : Database).attemptAll ds) := hlast ▸ extends_attemptAll db₀ after
  have hw₀ : db₀.WellFormed := hw.addAssertion hadd
  refine ⟨before, l, kind, e, after, db₀, hsplit, hadd, fun m hm => ?_, ?_⟩
  · obtain ⟨hs, hf⟩ := hw₀.framed a (by
      obtain ⟨-, -, rfl, rfl⟩ := addAssertion_eq_ok_iff.1 hadd
      exact List.mem_cons_self)
    obtain ⟨h, -, hh⟩ := hf.hypothesis?_mem hm
    exact ⟨h, hh, hx.hypothesis?_eq hw' hh⟩
  · exact closedFrame_of_declaration hw (layered_attemptAll before) hadd hx hw'

/-- The hypotheses `wy` and `min` of the rule are out of sight by then. -/
theorem rule_frame_stable :
    let db := ({} : Database).attemptAll Sample.declarations
    let rule : Assertion :=
      ⟨"rule", .axiomatic, ["wx", "wy", "min"], [⟨"x", "y"⟩], ["|-", "x"]⟩
    rule ∈ db.assertions ∧ db.activeHypothesis? "wy" = none ∧
      db.activeHypothesis? "min" = none ∧ db.ClosedFrame rule := by
  intro db rule
  have hrule : rule ∈ db.assertions := by decide +kernel
  obtain ⟨-, -, -, -, -, -, -, -, -, hclosed⟩ := frame_stable Sample.declarations hrule
  exact ⟨hrule, by decide +kernel, by decide +kernel, hclosed⟩

end Database

end Metamath
