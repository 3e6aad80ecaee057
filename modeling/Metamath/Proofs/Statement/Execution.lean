import Metamath.Proofs.Statement.Perform

/-!
# Carrying out statements

Carrying out a statement is performing the sentence that it holds (`ledger?_execute_iff`), as far as
the database and the incomplete proofs go (`Session.ledger`). What a statement checks beforehand, the
declaration or the replay of the proof would refuse as well, except for the list of labels and the
letters of a compressed proof. The unclosed `${` keep in step with the open scopes
(`Leveled.execute`).
-/

namespace Metamath

/-! ## Declaring -/

/-- What a session has come to, apart from where things stand. -/
def Session.ledger (s : Session) : Ledger :=
  ⟨s.db, s.warnings.map Diagnostic.label⟩

/-- What a step comes to, unless it failed. -/
def Step.ledger? : Step → Option Ledger
  | (s, none) => some s.ledger
  | (_, some _) => none

@[simp] theorem Session.db_ledger (s : Session) : s.ledger.db = s.db := rfl

@[simp] theorem Step.ledger?_accepted (s : Session) : Step.ledger? (s, none) = some s.ledger := rfl

@[simp] theorem Step.ledger?_failed (s : Session) (f : Failure) :
    Step.ledger? (s, some f) = none := rfl

namespace Session

@[simp] theorem ledger_mk (s : Session) (db : Database) (openings : List Position) :
    ledger ⟨db, openings, s.events⟩ = { s.ledger with db } := rfl

@[simp] theorem ledger_log (s : Session) (e : Event) : (s.log e).ledger =
    { s.ledger with
      incomplete := s.ledger.incomplete ++ e.warning?.toList.map Diagnostic.label } := by
  simp [ledger]

variable {s : Session} {r : Ledger} {ending : Option Failure}

theorem ledger?_declareAll_iff {declare : Database → Symbol → Except DeclarationError Database}
    {kind : Symbol → Declaration} (hd : ∀ db x, declare db x = Database.declare db (kind x))
    {stmt : String} {ts : List Token} :
    Step.ledger? (s.declareAll declare stmt ts) = some r ↔
      ∃ db, ((ts.map Token.text).map kind).foldlM Database.declare s.db = .ok db ∧
        { s.ledger with db } = r := by
  induction ts generalizing s with
  | nil => simp [declareAll, pure, Except.pure, ledger]
  | cons t ts ih =>
    simp only [declareAll, List.map_cons, foldlM_cons_eq_ok_iff, ← hd]
    cases h : declare s.db t.text with
    | error e => simp
    | ok db =>
      dsimp only
      rw [ih]
      simp

theorem ledger?_executeSymbols_iff {declare : Database → Symbol → Except DeclarationError Database}
    {kind : Symbol → Declaration} (hd : ∀ db x, declare db x = Database.declare db (kind x))
    {stmt : String} {keyword : Token} {symbols : Segment} :
    Step.ledger? (s.executeSymbols declare stmt ending keyword symbols) = some r ↔
      ∃ xs, symbols.words? = some xs ∧ xs ≠ [] ∧
        ∃ db, (xs.map kind).foldlM Database.declare s.db = .ok db ∧ { s.ledger with db } = r := by
  unfold executeSymbols
  cases hs : symbols.stop with
  | none => simp [Segment.words?, hs]
  | some stop =>
    simp only [Segment.words?, hs, Option.map_some, Option.some.injEq, exists_eq_left']
    cases hi : symbols.items with
    | nil => simp
    | cons t ts => simp [ledger?_declareAll_iff hd]

theorem ledger?_executeDisjoint_iff {keyword : Token} {symbols : Segment} :
    Step.ledger? (s.executeDisjoint ending keyword symbols) = some r ↔
      ∃ xs, symbols.words? = some xs ∧
        ∃ db, s.db.addDisjoint xs = .ok db ∧ { s.ledger with db } = r := by
  unfold executeDisjoint
  cases hs : symbols.stop with
  | none => simp [Segment.words?, hs]
  | some stop =>
    simp only [Segment.words?, hs, Option.map_some, Option.some.injEq, exists_eq_left']
    cases s.db.addDisjoint (symbols.items.map Token.text) <;> simp

theorem ledger?_executeClose_iff {keyword : Token} :
    Step.ledger? (s.executeClose keyword) = some r ↔
      ∃ db, s.db.popScope = .ok db ∧ { s.ledger with db } = r := by
  unfold executeClose
  cases s.db.popScope <;> simp [Event.warning?]

theorem ledger?_executeFloating_iff {label : Token} {fields : List Token} :
    Step.ledger? (s.executeFloating ending label fields) = some r ↔
      ∃ typecode v, fields.map Token.text = [typecode, v, "$."] ∧
        ∃ db, s.db.addFloating label.text typecode v = .ok db ∧ { s.ledger with db } = r := by
  rcases fields with _ | ⟨typecode, _ | ⟨v, _ | ⟨stop, _ | ⟨t, ts⟩⟩⟩⟩
  case cons.cons.cons.nil =>
    by_cases hstop : stop.text = "$."
    · cases hadd : s.db.addFloating label.text typecode.text v.text <;>
        simp [executeFloating, hstop, hadd]
    · simp [executeFloating, hstop]
  all_goals simp [executeFloating]

theorem checkedExpr_eq_ok_iff {stmt : String} {label : Token} {body : Segment} {e : Expr} :
    s.checkedExpr ending stmt label body = .ok e ↔
      body.words? = some e ∧ e.Over s.db.constants s.db.typed := by
  unfold checkedExpr
  cases hs : body.stop with
  | none => simp [Segment.words?, hs]
  | some stop =>
    rw [Segment.words?, hs, Option.map_some, Option.some.injEq]
    cases hc : s.db.checkExpr stmt label.text (body.items.map Token.text) with
    | error ie =>
      refine iff_of_false (by simp) ?_
      rintro ⟨rfl, he⟩
      rw [(Database.checkExpr_eq_ok_iff stmt label.text).2 he] at hc
      cases hc
    | ok u =>
      have he := (Database.checkExpr_eq_ok_iff stmt label.text).1 hc
      constructor
      · rintro h
        obtain rfl := Except.ok.inj h
        exact ⟨rfl, he⟩
      · rintro ⟨rfl, -⟩
        rfl

theorem ledger?_executeEssential_iff {label : Token} {body : Segment} :
    Step.ledger? (s.executeEssential ending label body) = some r ↔
      ∃ e, body.words? = some e ∧
        ∃ db, s.db.addEssential label.text e = .ok db ∧ { s.ledger with db } = r := by
  unfold executeEssential
  cases hc : s.checkedExpr ending "$e" label body with
  | error f =>
    refine iff_of_false (by simp) ?_
    rintro ⟨e, he, db, hadd, -⟩
    rw [checkedExpr_eq_ok_iff.2 ⟨he, (Database.addEssential_eq_ok_iff.1 hadd).2.1⟩] at hc
    cases hc
  | ok e =>
    simp only [(checkedExpr_eq_ok_iff.1 hc).1, Option.some.injEq, exists_eq_left']
    cases s.db.addEssential label.text e <;> simp

theorem ledger?_executeAxiomatic_iff {label : Token} {body : Segment} :
    Step.ledger? (s.executeAxiomatic ending label body) = some r ↔
      ∃ e, body.words? = some e ∧ ∃ db thm, s.db.addAssertion label.text .axiomatic e = .ok (db, thm) ∧
        { s.ledger with db } = r := by
  unfold executeAxiomatic
  cases hc : s.checkedExpr ending "$a" label body with
  | error f =>
    refine iff_of_false (by simp) ?_
    rintro ⟨e, he, db, thm, hadd, -⟩
    rw [checkedExpr_eq_ok_iff.2 ⟨he, (Database.addAssertion_eq_ok_iff.1 hadd).2.1⟩] at hc
    cases hc
  | ok e =>
    simp only [(checkedExpr_eq_ok_iff.1 hc).1, Option.some.injEq, exists_eq_left']
    rcases s.db.addAssertion label.text .axiomatic e with f | ⟨db, thm⟩ <;> simp [Event.warning?]

/-! ## Checking a proof -/

theorem firstFault?_eq_none_iff {thm : Assertion} {fault? : Label → Option Cause}
    {ts : List Token} : firstFault? thm fault? ts = none ↔ ∀ l ∈ ts.map Token.text, fault? l = none := by
  simp [firstFault?]

theorem labelFault?_normal_eq_none_iff {thm : Assertion} {l : Label} :
    s.labelFault? thm false l = none ↔ l = "?" ∨ l ≠ thm.label ∧ s.db.Names l := by
  unfold labelFault? Database.Names
  grind

theorem labelFault?_compressed_eq_none_iff {thm : Assertion} {l : Label} :
    s.labelFault? thm true l = none ↔ l ≠ thm.label ∧ l ∉ thm.hypotheses ∧ s.db.Names l := by
  unfold labelFault? Database.Names
  grind

theorem ledger?_conclude_iff {label : Token} {place : Nat → Position} {v : Verdict} :
    Step.ledger? (s.conclude label place v) = some r ↔
      ∃ b, (v.failure = none ∧ v.incomplete = b) ∧
        { s.ledger with
          incomplete := s.ledger.incomplete ++ if b then [label.text] else [] } = r := by
  unfold conclude
  cases v.failure with
  | some failure => simp
  | none => cases v.incomplete <;> simp [Event.warning?]

/-- What a proof that is accepted adds to the ledger of its theorem. -/
def Proves (s : Session) (label : Label) (thm : Assertion) (p : WrittenProof) (r : Ledger) : Prop :=
  ∃ b, p.check? s.db thm = some b ∧
    { s.ledger with incomplete := s.ledger.incomplete ++ if b then [label] else [] } = r

theorem ledger?_conclude_iff_proves {label : Token} {place : Nat → Position} {thm : Assertion}
    {p : WrittenProof} (hp : p.Admissible s.db thm) :
    Step.ledger? (s.conclude label place (p.verdict s.db thm)) = some r ↔
      s.Proves label.text thm p r := by
  simp only [ledger?_conclude_iff, Proves, WrittenProof.check?_eq_some_iff, hp, true_and]

theorem ledger?_executeProof_normal_iff {label : Token} {thm : Assertion} {steps : Segment} :
    Step.ledger? (s.executeProof ending label thm (.normal steps)) = some r ↔
      ∃ ls, steps.words? = some ls ∧ s.Proves label.text thm (.normal ls) r := by
  rw [executeProof]
  cases hf : firstFault? thm (s.labelFault? thm false) steps.items with
  | some f =>
    -- a step at fault would fail in the replay as well
    refine iff_of_false (by simp) ?_
    rintro ⟨ls, hls, b, hb, -⟩
    obtain ⟨stop, -, rfl⟩ := Option.map_eq_some_iff.1 hls
    obtain ⟨-, hv, -⟩ := WrittenProof.check?_eq_some_iff.1 hb
    rw [firstFault?_eq_none_iff.2 fun l hl =>
      labelFault?_normal_eq_none_iff.2 (names_of_checkNormal hv l hl)] at hf
    cases hf
  | none =>
    cases hs : steps.stop with
    | none => simp [Segment.words?, hs]
    | some stop =>
      simp only [Segment.words?, hs, Option.map_some, Option.some.injEq, exists_eq_left']
      have hp : WrittenProof.Admissible s.db thm (.normal (steps.items.map Token.text)) := trivial
      exact ledger?_conclude_iff_proves hp

theorem ledger?_executeProof_compressed_iff {label : Token} {thm : Assertion} {opening : Token}
    {labels letters : Segment} :
    Step.ledger? (s.executeProof ending label thm (.compressed opening labels letters)) = some r ↔
      ∃ ls cs, labels.words? = some ls ∧ letters.words? = some cs ∧
        s.Proves label.text thm (.compressed ls cs) r := by
  -- both lists are looked through before the proof is checked, each up to its end
  have hadm : ∀ ls cs, s.Proves label.text thm (.compressed ls cs) r →
      WrittenProof.Admissible s.db thm (.compressed ls cs) := fun ls cs ⟨_, hb, _⟩ =>
    (WrittenProof.check?_eq_some_iff.1 hb).1
  rw [executeProof]
  cases hf : firstFault? thm (s.labelFault? thm true) labels.items with
  | some f =>
    refine iff_of_false (by simp) ?_
    rintro ⟨ls, cs, hls, -, hp⟩
    obtain ⟨stop, -, rfl⟩ := Option.map_eq_some_iff.1 hls
    rw [firstFault?_eq_none_iff.2 fun l hl =>
      labelFault?_compressed_eq_none_iff.2 ((hadm _ _ hp).1 l hl)] at hf
    cases hf
  | none =>
    cases hs : labels.stop with
    | none => simp [Segment.words?, hs]
    | some stop =>
      dsimp only
      split
      case h_1 f hf' =>
        refine iff_of_false (by simp) ?_
        rintro ⟨ls, cs, -, hcs, hp⟩
        obtain ⟨stop, -, rfl⟩ := Option.map_eq_some_iff.1 hcs
        rw [firstFault?_eq_none_iff.2 fun c hc => if_pos ((hadm _ _ hp).2 c hc)] at hf'
        cases hf'
      case h_2 hf' hs' => simp [Segment.words?, hs']
      case h_3 stop' hf' hs' =>
        have hp : WrittenProof.Admissible s.db thm
            (.compressed (labels.items.map Token.text) (letters.items.map Token.text)) := by
          refine ⟨fun l hl => ?_, fun c hc => ?_⟩
          · exact labelFault?_compressed_eq_none_iff.1 (firstFault?_eq_none_iff.1 hf l hl)
          · simpa using firstFault?_eq_none_iff.1 hf' c hc
        simp only [Segment.words?, hs, hs', Option.map_some, Option.some.injEq, exists_eq_left',
          exists_and_left]
        rw [← List.flatMap_map Token.text utf8]
        exact ledger?_conclude_iff_proves hp

/-- A `$p` statement declares the theorem before its proof is looked at. -/
theorem ledger?_executeProvable_iff {label : Token} {body : Segment} {proof : ProofText} :
    Step.ledger? (s.executeProvable ending label body proof) = some r ↔
      ∃ e p, body.words? = some e ∧ proof.proof? = some p ∧
        ∃ db thm, s.db.addAssertion label.text .provable e = .ok (db, thm) ∧
          ({ s with db } : Session).Proves label.text thm p r := by
  unfold executeProvable
  cases hc : s.checkedExpr ending "$p" label body with
  | error f =>
    refine iff_of_false (by simp) ?_
    rintro ⟨e, p, he, -, db, thm, hadd, -⟩
    rw [checkedExpr_eq_ok_iff.2 ⟨he, (Database.addAssertion_eq_ok_iff.1 hadd).2.1⟩] at hc
    cases hc
  | ok e =>
    simp only [(checkedExpr_eq_ok_iff.1 hc).1, Option.some.injEq, exists_eq_left', exists_and_left]
    rcases s.db.addAssertion label.text .provable e with f | ⟨db, thm⟩
    · simp
    · cases proof with
      | missing => simp [executeProof, ProofText.proof?]
      | normal steps =>
        rw [ledger?_executeProof_normal_iff]
        simp [ProofText.proof?]
      | compressed opening labels letters =>
        rw [ledger?_executeProof_compressed_iff]
        simp [ProofText.proof?, Option.bind_eq_some_iff]

/-! ## Carrying out a statement -/

theorem ledger?_executeBody_iff {label : Token} {body : Body} :
    Step.ledger? (s.executeBody ending label body) = some r ↔
      ∃ c, body.clause? = some c ∧ (Sentence.labelled label.text c).perform s.ledger = some r := by
  cases body with
  | missing => simp [executeBody, Body.clause?]
  | unknown keyword => simp [executeBody, Body.clause?]
  | floating keyword fields =>
    rw [executeBody, ledger?_executeFloating_iff]
    simp [Body.clause?_floating_iff, Sentence.perform_eq_some_iff, Database.declare]
  | essential keyword expr =>
    rw [executeBody, ledger?_executeEssential_iff]
    simp [Body.clause?, Sentence.perform_eq_some_iff, Database.declare]
  | axiomatic keyword expr =>
    rw [executeBody, ledger?_executeAxiomatic_iff]
    simp [Body.clause?, Sentence.perform_eq_some_iff, Database.declare, map_eq_ok_iff]
  | provable keyword expr proof =>
    rw [executeBody, ledger?_executeProvable_iff]
    simp only [Body.clause?_provable_iff]
    constructor
    · rintro ⟨e, p, he, hp, hproof⟩
      exact ⟨_, ⟨e, p, he, hp, rfl⟩, Sentence.perform_provable_iff.2 hproof⟩
    · rintro ⟨_, ⟨e, p, he, hp, rfl⟩, hperform⟩
      exact ⟨e, p, he, hp, Sentence.perform_provable_iff.1 hperform⟩

/-- Carrying out a statement is performing the sentence that it holds, however the tokens end. -/
theorem ledger?_execute_iff (ending : Option Failure) {raw : Statement} :
    Step.ledger? (s.execute ending raw) = some r ↔
      ∃ st, raw.sentence? = some st ∧ st.WellFormed ∧ st.perform s.ledger = some r := by
  cases raw with
  | constants keyword symbols =>
    have hd : ∀ (db : Database) x, db.addConstant x = db.declare (.constant x) := fun _ _ => rfl
    rw [execute, ledger?_executeSymbols_iff hd]
    simp [Statement.sentence?, Sentence.perform_eq_some_iff]
  | vars keyword symbols =>
    have hd : ∀ (db : Database) x, db.addVariable x = db.declare (.var x) := fun _ _ => rfl
    rw [execute, ledger?_executeSymbols_iff hd]
    simp [Statement.sentence?, Sentence.perform_eq_some_iff]
  | disjoint keyword symbols =>
    rw [execute, ledger?_executeDisjoint_iff]
    simp [Statement.sentence?, Sentence.perform_eq_some_iff, Database.declare]
  | openBlock keyword =>
    simp [execute, executeOpen, Statement.sentence?, Sentence.perform_eq_some_iff, Database.declare,
      Event.warning?]
  | closeBlock keyword =>
    rw [execute, ledger?_executeClose_iff]
    simp [Statement.sentence?, Sentence.perform_eq_some_iff, Database.declare]
  | labelled label body =>
    simp only [execute, Statement.sentence?, Option.map_eq_some_iff, exists_exists_and_eq_and,
      Sentence.WellFormed]
    by_cases hl : isLabel label.text
    · simp only [hl, Bool.not_true, Bool.false_eq_true, if_false, true_and]
      cases hc : s.db.checkLabel label.text with
      | error e =>
        refine iff_of_false (by simp) ?_
        rintro ⟨c, -, hperform⟩
        rw [← db_ledger, Sentence.checkLabel_of_perform hperform] at hc
        cases hc
      | ok u => exact ledger?_executeBody_iff
    · simp [hl]

/-! ## Open blocks -/

theorem openings_declareAll (declare : Database → Symbol → Except DeclarationError Database)
    (stmt : String) (s : Session) (ts : List Token) :
    (s.declareAll declare stmt ts).1.openings = s.openings := by
  induction ts generalizing s with
  | nil => rfl
  | cons t ts ih =>
    rw [declareAll]
    split
    · rfl
    · exact ih _

theorem openings_executeSymbols (declare : Database → Symbol → Except DeclarationError Database)
    (stmt : String) (ending : Option Failure) (s : Session) (keyword : Token) (symbols : Segment) :
    (s.executeSymbols declare stmt ending keyword symbols).1.openings = s.openings := by
  unfold executeSymbols
  repeat' split
  · rfl
  · rfl
  · exact openings_declareAll ..

theorem openings_conclude (s : Session) (label : Token) (place : Nat → Position) (v : Verdict) :
    (s.conclude label place v).1.openings = s.openings := by
  unfold conclude
  repeat' split
  all_goals rfl

theorem openings_executeProof (ending : Option Failure) (s : Session) (label : Token)
    (thm : Assertion) (proof : ProofText) :
    (s.executeProof ending label thm proof).1.openings = s.openings := by
  cases proof with
  | missing => rfl
  | normal steps =>
    rw [executeProof]
    split
    · rfl
    · rfl
    · exact openings_conclude ..
  | compressed opening labels letters =>
    rw [executeProof]
    split
    · rfl
    · rfl
    · dsimp only
      split
      · rfl
      · rfl
      · exact openings_conclude ..

theorem openings_executeBody (ending : Option Failure) (s : Session) (label : Token) (body : Body) :
    (s.executeBody ending label body).1.openings = s.openings := by
  cases body with
  | missing => rfl
  | unknown keyword => rfl
  | floating keyword fields =>
    simp only [executeBody, executeFloating]
    repeat' split
    all_goals rfl
  | essential keyword expr =>
    simp only [executeBody, executeEssential]
    repeat' split
    all_goals rfl
  | axiomatic keyword expr =>
    simp only [executeBody, executeAxiomatic]
    repeat' split
    all_goals rfl
  | provable keyword expr proof =>
    rw [executeBody, executeProvable]
    repeat' split
    · rfl
    · rfl
    · exact openings_executeProof ..

/-- The unclosed `${` are those of the scopes around the innermost one. -/
def Leveled (s : Session) : Prop :=
  s.openings.length = s.db.enclosing.length

theorem Leveled.execute {s' : Session} (h : s.Leveled) {raw : Statement}
    (he : s.execute ending raw = (s', none)) : s'.Leveled := by
  have hledger : Step.ledger? (s.execute ending raw) = some s'.ledger := by rw [he, Step.ledger?_accepted]
  obtain ⟨st, hst, -, hperform⟩ := (ledger?_execute_iff ending).1 hledger
  -- what is neither `${` nor `$}` leaves both sides alone
  have hlocal : (∀ d ∈ st.declarations, d.IsLocal) →
      (s.execute ending raw).1.openings = s.openings → s'.Leveled := by
    intro hd ho
    have hdb : s'.db.enclosing = s.db.enclosing := Sentence.enclosing_of_perform hperform hd
    rw [he] at ho
    rw [Leveled, ho, hdb, h]
  cases raw with
  | constants keyword symbols =>
    obtain ⟨xs, -, rfl⟩ := Option.map_eq_some_iff.1 hst
    exact hlocal (by simp [Declaration.IsLocal]) (openings_executeSymbols ..)
  | vars keyword symbols =>
    obtain ⟨xs, -, rfl⟩ := Option.map_eq_some_iff.1 hst
    exact hlocal (by simp [Declaration.IsLocal]) (openings_executeSymbols ..)
  | disjoint keyword symbols =>
    obtain ⟨xs, -, rfl⟩ := Option.map_eq_some_iff.1 hst
    refine hlocal (by simp [Declaration.IsLocal]) ?_
    rw [Session.execute, executeDisjoint]
    repeat' split
    all_goals rfl
  | openBlock keyword =>
    obtain rfl := (Prod.mk.inj he).1
    simpa [Leveled, log, Database.pushScope] using h
  | closeBlock keyword =>
    rw [Session.execute, executeClose] at he
    split at he
    · cases he
    · rename_i hpop
      obtain rfl := (Prod.mk.inj he).1
      obtain ⟨outer, rest, hs, rfl⟩ := Database.popScope_eq_ok_iff.1 hpop
      rw [Leveled, hs, List.length_cons] at h
      change s.openings.tail.length = rest.length
      rw [List.length_tail, h, Nat.add_sub_cancel]
  | labelled label body =>
    obtain ⟨c, -, rfl⟩ := Option.map_eq_some_iff.1 hst
    refine hlocal ?_ ?_
    · cases c <;> simp [Declaration.IsLocal]
    · rw [Session.execute]
      repeat' split
      · rfl
      · rfl
      · exact openings_executeBody ..

end Session

end Metamath
