import Metamath.Proofs.Database.History
import Metamath.Proofs.Replay.Basic
import Metamath.Proofs.Statement.Sentence

/-!
# Performing sentences

What a text means is said on its sentences alone: `Sentence.perform` makes the declarations of a
sentence and checks its proof. A sentence that can be performed is read back from its words
(`Sentence.readable_of_perform`), because symbols and labels that are in use are no keywords.
-/

namespace Metamath

/-! ## Performing sentences -/

/-- Something is declared, and a label is made of label characters. -/
@[simp] def Sentence.WellFormed : Sentence → Prop
  | constants symbols | vars symbols => symbols ≠ []
  | disjoint _ | openBlock | closeBlock => True
  | labelled l _ => isLabel l

@[simp] def Clause.declaration (l : Label) : Clause → Declaration
  | floating typecode v => .floating l typecode v
  | essential e => .essential l e
  | axiomatic e => .assertion l .axiomatic e
  | provable e _ => .assertion l .provable e

theorem Clause.label?_declaration (l : Label) (clause : Clause) :
    (clause.declaration l).label? = some l := by
  cases clause <;> rfl

/-- What a sentence declares, in order. -/
@[simp] def Sentence.declarations : Sentence → List Declaration
  | constants symbols => symbols.map .constant
  | vars symbols => symbols.map .var
  | disjoint symbols => [.disjoint symbols]
  | openBlock => [.openScope]
  | closeBlock => [.closeScope]
  | labelled l clause => [clause.declaration l]

/-- A label names a step that may be taken. -/
def Database.Names (db : Database) (l : Label) : Prop :=
  (db.assertion? l).isSome ∨ (db.activeHypothesis? l).isSome

instance (db : Database) : DecidablePred db.Names :=
  fun _ => inferInstanceAs (Decidable (_ ∨ _))

namespace WrittenProof

/-- A compressed proof lists other steps than the theorem and its mandatory hypotheses, and the rest
of it is letters. -/
def Admissible (db : Database) (thm : Assertion) : WrittenProof → Prop
  | normal _ => True
  | compressed labels chunks =>
    (∀ l ∈ labels, l ≠ thm.label ∧ l ∉ thm.hypotheses ∧ db.Names l) ∧ ∀ c ∈ chunks, isLetterChunk c

instance (db : Database) (thm : Assertion) : DecidablePred (Admissible db thm)
  | normal _ => inferInstanceAs (Decidable True)
  | compressed _ _ => inferInstanceAs (Decidable (_ ∧ _))

def verdict (db : Database) (thm : Assertion) : WrittenProof → Verdict
  | normal steps => checkNormal db thm steps
  | compressed labels chunks => checkCompressed db thm labels (chunks.flatMap utf8)

/-- Whether a proof is incomplete, if it is accepted. -/
def check? (db : Database) (thm : Assertion) (p : WrittenProof) : Option Bool :=
  if p.Admissible db thm ∧ (p.verdict db thm).failure = none then some (p.verdict db thm).incomplete
  else none

theorem check?_eq_some_iff {db : Database} {thm : Assertion} {p : WrittenProof} {b : Bool} :
    p.check? db thm = some b ↔ p.Admissible db thm ∧ (p.verdict db thm).failure = none ∧
      (p.verdict db thm).incomplete = b := by
  rw [check?, Option.ite_none_right_eq_some, Option.some.injEq, and_assoc]

end WrittenProof

/-- What the sentences so far come to: a database, and the labels of the incomplete proofs. -/
structure Ledger where
  db : Database := {}
  incomplete : List Label := []
deriving DecidableEq, Repr

namespace Sentence

/-- The label of the sentence, if it holds an incomplete proof. The proof is checked when the theorem
is declared. -/
@[simp] def incomplete? (db db' : Database) : Sentence → Option (List Label)
  | labelled l (.provable e proof) =>
    (proof.check? db' (db.frame l .provable e)).map fun b => if b then [l] else []
  | _ => some []

/-- Makes the declarations of a sentence and checks its proof. -/
def perform (r : Ledger) (st : Sentence) : Option Ledger :=
  (st.declarations.foldlM Database.declare r.db).toOption.bind fun db =>
    (st.incomplete? r.db db).map fun ls => ⟨db, r.incomplete ++ ls⟩

def performAll (r : Ledger) (sts : List Sentence) : Option Ledger :=
  sts.foldlM perform r

end Sentence

/-! ## Sequences of declarations -/

namespace Database

variable {db db' : Database} {ds : List Declaration}

/-- What each declaration preserves, a sequence of them preserves. -/
theorem foldlM_declare_induction {P : Database → Prop}
    (hP : ∀ d ∈ ds, ∀ db db', db.declare d = .ok db' → P db → P db') (h : P db)
    (hds : ds.foldlM declare db = .ok db') : P db' := by
  induction ds generalizing db with
  | nil =>
    obtain rfl := Except.ok.inj hds
    exact h
  | cons d ds ih =>
    obtain ⟨db₁, hd, hds⟩ := foldlM_cons_eq_ok_iff.1 hds
    rw [List.forall_mem_cons] at hP
    exact ih hP.2 (hP.1 db db₁ hd h) hds

theorem exists_declare_of_foldlM (hds : ds.foldlM declare db = .ok db') {d : Declaration}
    (hd : d ∈ ds) : ∃ db₁ db₂ : Database, db₁.declare d = .ok db₂ := by
  induction ds generalizing db with
  | nil => cases hd
  | cons d' ds ih =>
    obtain ⟨db₁, hd₁, hds⟩ := foldlM_cons_eq_ok_iff.1 hds
    rcases List.mem_cons.1 hd with rfl | hd
    · exact ⟨db, db₁, hd₁⟩
    · exact ih hds hd

theorem checkLabel_of_declare {d : Declaration} (h : db.declare d = .ok db') {l : Label}
    (hl : d.label? = some l) : db.checkLabel l = .ok () := by
  cases d with
  | floating l' typecode v =>
    obtain rfl := Option.some.inj hl
    exact (addFloating_eq_ok_iff.1 h).1
  | essential l' e =>
    obtain rfl := Option.some.inj hl
    exact (addEssential_eq_ok_iff.1 h).1
  | assertion l' kind e =>
    obtain rfl := Option.some.inj hl
    obtain ⟨⟨_, _⟩, ha, -⟩ := map_eq_ok_iff.1 h
    exact (addAssertion_eq_ok_iff.1 ha).1
  | _ => cases hl

end Database

namespace Sentence

variable {st : Sentence} {r r' : Ledger}

theorem perform_eq_some_iff : st.perform r = some r' ↔
    ∃ db ls, st.declarations.foldlM Database.declare r.db = .ok db ∧
      st.incomplete? r.db db = some ls ∧ ⟨db, r.incomplete ++ ls⟩ = r' := by
  simp only [perform, Option.bind_eq_some_iff, toOption_eq_some_iff, Option.map_eq_some_iff]
  grind

theorem performAll_cons_eq_some_iff {sts : List Sentence} :
    performAll r (st :: sts) = some r' ↔ ∃ r₁, st.perform r = some r₁ ∧ performAll r₁ sts = some r' := by
  rw [performAll, List.foldlM_cons]
  exact Option.bind_eq_some_iff

/-- A theorem is declared, and then its proof is checked. -/
theorem perform_provable_iff {l : Label} {e : Expr} {p : WrittenProof} :
    (labelled l (.provable e p)).perform r = some r' ↔
      ∃ db thm, r.db.addAssertion l .provable e = .ok (db, thm) ∧ ∃ b, p.check? db thm = some b ∧
        ⟨db, r.incomplete ++ if b then [l] else []⟩ = r' := by
  have hdecl : ∀ db, (labelled l (.provable e p)).declarations.foldlM Database.declare r.db = .ok db ↔
      r.db.addAssertion l .provable e = .ok (db, r.db.frame l .provable e) := by
    intro db
    simp [Database.declare, map_eq_ok_iff, Database.addAssertion_eq_ok_iff]
  simp only [perform_eq_some_iff, hdecl, incomplete?, Option.map_eq_some_iff]
  constructor
  · rintro ⟨db, ls, hadd, ⟨b, hb, rfl⟩, rfl⟩
    exact ⟨db, _, hadd, b, hb, rfl⟩
  · rintro ⟨db, thm, hadd, b, hb, rfl⟩
    obtain ⟨-, -, rfl, -⟩ := Database.addAssertion_eq_ok_iff.1 hadd
    exact ⟨db, _, hadd, ⟨b, hb, rfl⟩, rfl⟩

/-- Only the sentences `${` and `$}` change the scopes around the innermost one. -/
theorem enclosing_of_perform (h : st.perform r = some r')
    (hd : ∀ d ∈ st.declarations, d.IsLocal) : r'.db.enclosing = r.db.enclosing := by
  obtain ⟨db, ls, hdb, -, rfl⟩ := perform_eq_some_iff.1 h
  refine Database.foldlM_declare_induction (P := fun db => db.enclosing = r.db.enclosing) ?_ rfl hdb
  intro d hm db₁ db₂ hdecl h₁
  have hstack := Database.stack_of_declare hdecl
  rw [Database.stack, Database.stack, onScopes_of_isLocal (hd d hm)] at hstack
  rw [(List.cons.inj hstack).2, h₁]

theorem checkLabel_of_perform {l : Label} {clause : Clause}
    (h : (labelled l clause).perform r = some r') : r.db.checkLabel l = .ok () := by
  obtain ⟨db, ls, hdb, -⟩ := perform_eq_some_iff.1 h
  obtain ⟨db₁, hd, -⟩ := foldlM_cons_eq_ok_iff.1 hdb
  exact Database.checkLabel_of_declare hd (clause.label?_declaration l)

end Sentence

/-! ## Names in use -/

/-- A database in which every name in use is of its kind: symbols have no `$`, labels are made of
label characters. -/
structure Database.WellNamed (db : Database) : Prop where
  wellFormed : db.WellFormed
  symbols : ∀ s, s ∈ db.constants ∨ s ∈ db.vars → isMathSymbol s
  labels : ∀ l ∈ db.labels, isLabel l

namespace Database

variable {db db' : Database}

theorem wellNamed_empty : WellNamed {} where
  wellFormed := wellFormed_empty
  symbols := by simp
  labels := by simp [labels]

theorem WellNamed.declare (h : db.WellNamed) {d : Declaration} (hl : d.WellLabelled)
    (hd : db.declare d = .ok db') : db'.WellNamed where
  wellFormed := h.wellFormed.declare hd
  symbols := by
    cases d with
    | constant x =>
      obtain ⟨-, hx, -, -, -, rfl⟩ := addConstant_eq_ok_iff.1 hd
      rintro s (hs | hs)
      · rcases List.mem_cons.1 hs with rfl | hs
        · exact hx
        · exact h.symbols s (.inl hs)
      · exact h.symbols s (.inr hs)
    | var x =>
      obtain ⟨hx, -, -, -, rfl⟩ := addVariable_eq_ok_iff.1 hd
      rintro s (hs | hs)
      · exact h.symbols s (.inl hs)
      · rcases List.mem_insert_iff.1 hs with rfl | hs
        · exact hx
        · exact h.symbols s (.inr hs)
    | _ =>
      obtain rfl := effect_of_declare hd
      exact h.symbols
  labels l hm := ((mem_labels_of_declare hd).1 hm).elim (hl l) (h.labels l)

theorem WellNamed.isMathSymbol_of_over (h : db.WellNamed) {e : Expr}
    (he : e.Over db.constants db.typed) : ∀ s ∈ e, isMathSymbol s := by
  intro s hs
  rw [h.wellFormed.typed_eq] at he
  exact h.symbols s ((he.mem hs).imp_right fun hv => h.wellFormed.subjects_active_subset hv)

theorem WellNamed.isLabel_of_names (h : db.WellNamed) {l : Label} (hl : db.Names l) : isLabel l := by
  refine h.labels l ?_
  rcases hl with hl | hl <;> obtain ⟨x, hx⟩ := Option.isSome_iff_exists.1 hl
  · obtain ⟨hm, rfl⟩ := h.wellFormed.assertion?_eq_some_iff.1 hx
    exact List.mem_append_right _ (List.mem_map_of_mem hm)
  · obtain ⟨hm, rfl⟩ := h.wellFormed.activeHypothesis?_eq_some_iff.1 hx
    exact List.mem_append_left _ (List.mem_map_of_mem (h.wellFormed.active_subset hm))

end Database

/-- The steps of an accepted proof are unknown, or name steps other than the theorem. -/
theorem names_of_checkNormal {db : Database} {thm : Assertion} {steps : List Label}
    (h : (checkNormal db thm steps).failure = none) :
    ∀ l ∈ steps, l = "?" ∨ l ≠ thm.label ∧ db.Names l := by
  intro l hl
  obtain ⟨r, hr⟩ : ∃ r, runSteps (Replay.step db thm) 0 {} steps = (r, none) := by
    cases hf : (runSteps (Replay.step db thm) 0 {} steps).2 with
    | none => exact ⟨_, Prod.ext rfl hf⟩
    | some failure => simp [checkNormal, Replay.verdict, hf] at h
  obtain ⟨r₁, r₂, hstep⟩ := exists_step_of_runSteps hr hl
  obtain ⟨hu, -⟩ | ⟨-, ht, h₀, hh, -⟩ | ⟨-, ht, -, a, ha, -⟩ := Replay.step_cases hstep
  · exact .inl hu
  · exact .inr ⟨ht, .inr (Option.isSome_of_eq_some hh)⟩
  · exact .inr ⟨ht, .inl (Option.isSome_of_eq_some ha)⟩

namespace Sentence

variable {st : Sentence} {r r' : Ledger}

theorem WellFormed.wellLabelled (h : st.WellFormed) : ∀ d ∈ st.declarations, d.WellLabelled := by
  cases st with
  | labelled l clause =>
    intro d hd
    obtain rfl := List.mem_singleton.1 hd
    rw [Declaration.WellLabelled, clause.label?_declaration l]
    exact fun l' hl => Option.mem_some.1 hl ▸ h
  | _ => simp [Declaration.WellLabelled, Declaration.label?]

theorem wellNamed_of_perform (hr : r.db.WellNamed) (hst : st.WellFormed)
    (h : st.perform r = some r') : r'.db.WellNamed := by
  obtain ⟨db, ls, hdb, -, rfl⟩ := perform_eq_some_iff.1 h
  exact Database.foldlM_declare_induction
    (fun d hd db db' hdecl hdb => hdb.declare (hst.wellLabelled d hd) hdecl) hr hdb

end Sentence

theorem notMem_of_forall {p : String → Bool} {ws : List String} (h : ∀ w ∈ ws, p w) {w : String}
    (hw : p w = false) : w ∉ ws := fun hm => by
  rw [h w hm] at hw
  cases hw

theorem WrittenProof.readable_of_check? {db : Database} (hdb : db.WellNamed) {thm : Assertion}
    {p : WrittenProof} {b : Bool} (h : p.check? db thm = some b) : p.Readable := by
  obtain ⟨ha, hv, -⟩ := check?_eq_some_iff.1 h
  cases p with
  | normal steps =>
    have hsteps : ∀ l ∈ steps, (l == "?" || isLabel l) := by
      intro l hl
      rcases names_of_checkNormal hv l hl with rfl | ⟨-, hn⟩
      · rfl
      · rw [hdb.isLabel_of_names hn, Bool.or_true]
    exact ⟨fun hh => notMem_of_forall hsteps (by decide) (List.mem_of_mem_head? hh),
      notMem_of_forall hsteps (by decide)⟩
  | compressed labels chunks =>
    exact ⟨notMem_of_forall (fun l hl => hdb.isLabel_of_names (ha.1 l hl).2.2) (by decide),
      notMem_of_forall ha.2 (by decide)⟩

theorem Clause.readable_of_declare {db db' : Database} (hdb : db.WellNamed) (hdb' : db'.WellNamed)
    {l : Label} {clause : Clause} (hd : db.declare (clause.declaration l) = .ok db') {ls : List Label}
    (h : (Sentence.labelled l clause).incomplete? db db' = some ls) : clause.Readable := by
  cases clause with
  | floating typecode v => trivial
  | essential e =>
    obtain ⟨-, he, -⟩ := Database.addEssential_eq_ok_iff.1 hd
    exact notMem_of_forall (hdb.isMathSymbol_of_over he) (by decide)
  | axiomatic e =>
    obtain ⟨⟨_, _⟩, ha, -⟩ := map_eq_ok_iff.1 hd
    obtain ⟨-, he, -⟩ := Database.addAssertion_eq_ok_iff.1 ha
    exact notMem_of_forall (hdb.isMathSymbol_of_over he) (by decide)
  | provable e proof =>
    obtain ⟨⟨_, _⟩, ha, -⟩ := map_eq_ok_iff.1 hd
    obtain ⟨-, he, -⟩ := Database.addAssertion_eq_ok_iff.1 ha
    obtain ⟨b, hb, -⟩ := Option.map_eq_some_iff.1 h
    exact ⟨notMem_of_forall (hdb.isMathSymbol_of_over he) (by decide),
      WrittenProof.readable_of_check? hdb' hb⟩

namespace Sentence

variable {st : Sentence} {r r' : Ledger}

/-- A sentence that can be performed is read back from its words. -/
theorem readable_of_perform (hr : r.db.WellNamed) (hst : st.WellFormed)
    (h : st.perform r = some r') : st.Readable := by
  have hr' := wellNamed_of_perform hr hst h
  obtain ⟨db, ls, hdb, hls, rfl⟩ := perform_eq_some_iff.1 h
  cases st with
  | constants symbols =>
    refine notMem_of_forall (fun x hx => ?_) (by decide : isMathSymbol "$." = false)
    obtain ⟨db₁, db₂, hd⟩ := Database.exists_declare_of_foldlM hdb (List.mem_map_of_mem hx)
    exact (Database.addConstant_eq_ok_iff.1 hd).2.1
  | vars symbols =>
    refine notMem_of_forall (fun x hx => ?_) (by decide : isMathSymbol "$." = false)
    obtain ⟨db₁, db₂, hd⟩ := Database.exists_declare_of_foldlM hdb (List.mem_map_of_mem hx)
    exact (Database.addVariable_eq_ok_iff.1 hd).1
  | disjoint symbols =>
    obtain ⟨db₁, hd, -⟩ := foldlM_cons_eq_ok_iff.1 hdb
    obtain ⟨hactive, -⟩ := Database.addDisjoint_eq_ok_iff.1 hd
    exact notMem_of_forall
      (fun x hx => hr.symbols x (.inr (hr.wellFormed.active_vars x (hactive x hx)))) (by decide)
  | openBlock => trivial
  | closeBlock => trivial
  | labelled l clause =>
    obtain ⟨db₁, hd, hdb⟩ := foldlM_cons_eq_ok_iff.1 hdb
    obtain rfl := Except.ok.inj hdb
    refine ⟨fun hm => ?_, Clause.readable_of_declare hr hr' hd hls⟩
    -- no keyword is made of label characters
    have hkeys : ∀ k ∈ keywords, isLabel k = false := by decide
    rw [WellFormed, hkeys l hm] at hst
    cases hst

theorem readable_of_performAll {sts : List Sentence} (hr : r.db.WellNamed)
    (hsts : ∀ st ∈ sts, st.WellFormed) (h : performAll r sts = some r') :
    ∀ st ∈ sts, st.Readable := by
  induction sts generalizing r with
  | nil => simp
  | cons st sts ih =>
    obtain ⟨r₁, h₁, h⟩ := performAll_cons_eq_some_iff.1 h
    rw [List.forall_mem_cons] at hsts ⊢
    exact ⟨readable_of_perform hr hsts.1 h₁, ih (wellNamed_of_perform hr hsts.1 h₁) hsts.2 h⟩

end Sentence

end Metamath
