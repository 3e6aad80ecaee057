import Metamath.Proofs.Statement.Fault
import Metamath.Proofs.Statement.Language

/-!
# Runs that fail

A run that fails has carried out some statements (`Session.Completes`) and stops after them
(`Halts`): it is interrupted between two statements, the tokens end, or the next statement fails.
`Statement.Leaves` says what a failing statement leaves in the database: the symbols before the one
that was refused, or the theorem whose proof was not accepted, and nothing else.
-/

namespace Metamath

/-! ## What a failing statement leaves -/

/-- A label and an expression with which an assertion can be declared. -/
def Database.Admits (db : Database) (l : Label) (e : Expr) : Prop :=
  isLabel l ∧ db.checkLabel l = .ok () ∧ e.Over db.constants (subjects db.activeHypotheses)

/-- The database with the record of a theorem. -/
def Database.record (db : Database) (l : Label) (e : Expr) : Database :=
  { db with assertions := db.frame l .provable e :: db.assertions }

/-- Symbols are declared one by one up to one that is refused, if there are any. -/
def LeavesSymbols (stmt : String) (kind : Symbol → Declaration) (db : Database) (f : Failure)
    (db' : Database) (symbols : List Token) : Prop :=
  (symbols = [] ∧ db' = db) ∨
    ∃ before t after e, symbols = before ++ t :: after ∧
      ((before.map Token.text).map kind).foldlM Database.declare db = .ok db' ∧
      db'.declare (kind t.text) = .error e ∧ f = (Cause.declaration e).failure stmt "" t.pos

/-- What a statement that fails has made of a database. Only a `$c` or `$v` statement that is
terminated and a `$p` statement whose label and expression are accepted can leave something. -/
def Statement.Leaves (db : Database) (f : Failure) (db' : Database) : Statement → Prop
  | constants _ ⟨symbols, some _⟩ => LeavesSymbols "$c" .constant db f db' symbols
  | vars _ ⟨symbols, some _⟩ => LeavesSymbols "$v" .var db f db' symbols
  | labelled label (.provable _ ⟨symbols, some _⟩ _) =>
    (db.Admits label.text (symbols.map Token.text) ∧
        db' = db.record label.text (symbols.map Token.text)) ∨
      (¬ db.Admits label.text (symbols.map Token.text) ∧ db' = db)
  | _ => db' = db

namespace Session

variable {s s' : Session} {ending : Option Failure} {f : Failure}

theorem leavesSymbols_declareAll {declare : Database → Symbol → Except DeclarationError Database}
    {kind : Symbol → Declaration} (hd : ∀ db x, declare db x = Database.declare db (kind x))
    {stmt : String} {ts : List Token} (h : s.declareAll declare stmt ts = (s', some f)) :
    LeavesSymbols stmt kind s.db f s'.db ts := by
  induction ts generalizing s with
  | nil => cases h
  | cons t ts ih =>
    rw [declareAll] at h
    cases ht : declare s.db t.text with
    | error e =>
      rw [ht] at h
      obtain ⟨rfl, hf⟩ := Prod.mk.inj h
      exact .inr ⟨[], t, ts, e, rfl, rfl, by rw [← hd, ht], (Option.some.inj hf).symm⟩
    | ok db =>
      rw [ht] at h
      have hcons : Database.declare s.db (kind t.text) = .ok db := by rw [← hd, ht]
      obtain ⟨rfl, -⟩ | ⟨before, u, after, e, rfl, hbefore, hu, hf⟩ := ih h
      · cases h
      · exact .inr ⟨t :: before, u, after, e, rfl,
          foldlM_cons_eq_ok_iff.2 ⟨db, hcons, hbefore⟩, hu, hf⟩

theorem leavesSymbols_executeSymbols
    {declare : Database → Symbol → Except DeclarationError Database} {kind : Symbol → Declaration}
    (hd : ∀ db x, declare db x = Database.declare db (kind x)) {stmt : String} {keyword stop : Token}
    {symbols : List Token}
    (h : s.executeSymbols declare stmt ending keyword ⟨symbols, some stop⟩ = (s', some f)) :
    LeavesSymbols stmt kind s.db f s'.db symbols := by
  unfold executeSymbols at h
  dsimp only at h
  split_ifs at h with hi
  · obtain ⟨rfl, -⟩ := Prod.mk.inj h
    exact .inl ⟨List.isEmpty_iff.1 hi, rfl⟩
  · exact leavesSymbols_declareAll hd h

theorem db_executeDisjoint_of_failed {keyword : Token} {symbols : Segment}
    (h : s.executeDisjoint ending keyword symbols = (s', some f)) : s'.db = s.db := by
  revert h
  fun_cases executeDisjoint ending s keyword symbols <;> rintro ⟨⟩ <;> rfl

theorem db_executeClose_of_failed {keyword : Token} (h : s.executeClose keyword = (s', some f)) :
    s'.db = s.db := by
  revert h
  fun_cases executeClose s keyword <;> rintro ⟨⟩
  rfl

theorem db_executeBody_of_failed {label : Token} {body : Body}
    (hb : ∀ keyword expr proof, body ≠ .provable keyword expr proof)
    (h : s.executeBody ending label body = (s', some f)) : s'.db = s.db := by
  revert h
  cases body with
  | missing =>
    rintro ⟨⟩
    rfl
  | unknown keyword =>
    rintro ⟨⟩
    rfl
  | floating keyword fields =>
    simp only [executeBody, executeFloating]
    repeat' split
    all_goals rintro ⟨⟩ <;> rfl
  | essential keyword expr =>
    rw [executeBody]
    fun_cases executeEssential ending s label expr <;> rintro ⟨⟩ <;> rfl
  | axiomatic keyword expr =>
    rw [executeBody]
    fun_cases executeAxiomatic ending s label expr <;> rintro ⟨⟩ <;> rfl
  | provable keyword expr proof => exact absurd rfl (hb keyword expr proof)

theorem db_conclude (s : Session) (label : Token) (place : Nat → Position) (v : Verdict) :
    (s.conclude label place v).1.db = s.db := by
  fun_cases conclude s label place v <;> rfl

/-- Checking a proof leaves the database alone. -/
theorem db_of_executeProof {label : Token} {thm : Assertion} {proof : ProofText} {step : Step}
    (h : s.executeProof ending label thm proof = step) : step.1.db = s.db := by
  subst h
  fun_cases executeProof ending s label thm proof with
  | case4 => exact db_conclude ..
  | case9 => exact db_conclude ..
  | _ => rfl

theorem leaves_executeProvable (hs : s.db.WellFormed) {label : Token} (hl : isLabel label.text)
    (hfree : s.db.checkLabel label.text = .ok ()) {symbols : List Token} {stop : Token}
    {proof : ProofText}
    (h : s.executeProvable ending label ⟨symbols, some stop⟩ proof = (s', some f)) :
    (s.db.Admits label.text (symbols.map Token.text) ∧
        s'.db = s.db.record label.text (symbols.map Token.text)) ∨
      (¬ s.db.Admits label.text (symbols.map Token.text) ∧ s'.db = s.db) := by
  -- the end of the tokens does not matter to an expression that is terminated
  have hchecked : s.checkedExpr ending "$p" label ⟨symbols, some stop⟩ =
      s.checkedExpr none "$p" label ⟨symbols, some stop⟩ := rfl
  rw [executeProvable, hchecked] at h
  rw [Database.Admits, ← hs.typed_eq]
  by_cases hover : Expr.Over s.db.constants s.db.typed (symbols.map Token.text)
  · have hadd : s.db.addAssertion label.text .provable (symbols.map Token.text) =
        .ok (s.db.record label.text (symbols.map Token.text), s.db.frame label.text .provable _) :=
      Database.addAssertion_eq_ok_iff.2 ⟨hfree, hover, rfl, rfl⟩
    rw [checkedExpr_eq_ok_iff.2 ⟨rfl, hover⟩] at h
    dsimp only at h
    rw [hadd] at h
    exact .inl ⟨⟨hl, hfree, hover⟩, db_of_executeProof h⟩
  · refine .inr ⟨fun ha => hover ha.2.2, ?_⟩
    cases hc : s.checkedExpr none "$p" label ⟨symbols, some stop⟩ with
    | error f' =>
      rw [hc] at h
      obtain ⟨rfl, -⟩ := Prod.mk.inj h
      rfl
    | ok e =>
      obtain ⟨he, hover'⟩ := checkedExpr_eq_ok_iff.1 hc
      obtain rfl := Option.some.inj he
      exact absurd hover' hover

theorem leaves_of_not_admits {db : Database} {label : Token} (h : ∀ e, ¬ db.Admits label.text e)
    (body : Body) : (Statement.labelled label body).Leaves db f db := by
  unfold Statement.Leaves
  split
  · trivial
  all_goals simp_all

/-- A statement that fails leaves what `Statement.Leaves` says. -/
theorem leaves_execute (hs : s.db.WellFormed) {st : Statement}
    (h : s.execute ending st = (s', some f)) : st.Leaves s.db f s'.db := by
  cases st with
  | constants keyword symbols =>
    obtain ⟨symbols, _ | stop⟩ := symbols
    · cases h
      rfl
    · rw [execute] at h
      exact leavesSymbols_executeSymbols (fun _ _ => rfl) h
  | vars keyword symbols =>
    obtain ⟨symbols, _ | stop⟩ := symbols
    · cases h
      rfl
    · rw [execute] at h
      exact leavesSymbols_executeSymbols (fun _ _ => rfl) h
  | disjoint keyword symbols => exact db_executeDisjoint_of_failed h
  | openBlock keyword => cases h
  | closeBlock keyword => exact db_executeClose_of_failed h
  | labelled label body =>
    rw [execute] at h
    split_ifs at h with hl
    · cases h
      exact leaves_of_not_admits (fun e ha => by simp [ha.1] at hl) body
    · rw [Bool.not_eq_true', Bool.not_eq_false] at hl
      cases hfree : s.db.checkLabel label.text with
      | error e =>
        rw [hfree] at h
        cases h
        exact leaves_of_not_admits (fun e ha => by simp [ha.2.1] at hfree) body
      | ok u =>
        rw [hfree] at h
        cases body with
        | provable keyword expr proof =>
          obtain ⟨symbols, _ | stop⟩ := expr
          · cases h
            rfl
          · exact leaves_executeProvable hs hl hfree h
        | _ => exact db_executeBody_of_failed (by simp) h

theorem warnings_of_failed {st : Statement} (h : s.execute ending st = (s', some f)) :
    s'.warnings = s.warnings := by
  have hchange := s.execute_change ending st
  rw [h] at hchange
  cases hchange with
  | unproved declares warnings => exact warnings
  | refused label added warnings => exact warnings

/-! ## Statements that are carried out -/

/-- Carrying out statements one by one leads from one session to another, and none of them fails. -/
inductive Completes (ending : Option Failure) : Session → List Statement → Session → Prop
  | nil (s : Session) : Completes ending s [] s
  | cons {s s₁ s' : Session} {st : Statement} {sts : List Statement}
      (first : s.execute ending st = (s₁, none)) (others : Completes ending s₁ sts s') :
      Completes ending s (st :: sts) s'

/-- Statements that are carried out are performed. -/
theorem Completes.performs {sts : List Statement} (h : Completes ending s sts s') :
    Statement.Performs s.ledger sts s'.ledger := by
  induction h with
  | nil s => exact Statement.performs_nil_iff.2 rfl
  | cons first others ih =>
    refine Statement.performs_cons_iff.2 ⟨_, ?_, ih⟩
    exact (ledger?_execute_iff ending).1 (by rw [first, Step.ledger?_accepted])

end Session

/-! ## Where a run stops -/

/-- How a run fails when it has come to a session after so many tokens, with statements left over:
it is interrupted, the tokens or the blocks do not end as they should, or a statement fails. Only in
the last case something is added to the database. -/
inductive Halts (interrupt : Option Interrupt) (ending : Option Failure) (s : Session)
    (taken : Nat) : List Statement → Failure → Database → Prop
  | interrupted {i : Interrupt} {rest : List Statement} (given : interrupt = some i)
      (noticed : i.after ≤ taken) : Halts interrupt ending s taken rest (.interrupted i.cause) s.db
  | broken {f : Failure} (given : ending = some f) : Halts interrupt ending s taken [] f s.db
  | unclosed {pos : Position} {outer : List Position} (ended : ending = none)
      (openings : s.openings = pos :: outer) :
      Halts interrupt ending s taken [] ((Cause.statement .unclosedBlock).failure "$\x7b" "" pos) s.db
  | failed {s' : Session} {st : Statement} {rest : List Statement} {f : Failure}
      (fails : s.execute ending st = (s', some f)) (leaves : st.Leaves s.db f s'.db) :
      Halts interrupt ending s taken (st :: rest) f s'.db

/-- A run that fails has carried out some statements, and stops after them. -/
theorem exists_halts_of_runFrom {interrupt : Option Interrupt} {ending : Option Failure}
    {sts : List Statement} {s s' : Session} (hs : s.db.WellFormed) {taken : Nat} {f : Failure}
    (h : runFrom interrupt ending s taken sts = (s', some f)) :
    ∃ done rest s₁, sts = done ++ rest ∧ s.Completes ending done s₁ ∧
      Halts interrupt ending s₁ (taken + (done.flatMap Statement.tokens).length) rest f s'.db ∧
      s'.warnings = s₁.warnings := by
  induction sts generalizing s taken with
  | nil =>
    refine ⟨[], [], s, rfl, .nil s, ?_⟩
    rw [runFrom] at h
    split at h
    · rename_i hi
      obtain ⟨i, hgiven, hafter, rfl⟩ := exists_of_interruption? hi
      cases h
      exact ⟨.interrupted hgiven hafter, rfl⟩
    · revert h
      fun_cases Session.close ending s <;> rintro ⟨⟩
      · exact ⟨.broken rfl, rfl⟩
      · rename_i ho
        exact ⟨.unclosed rfl ho, rfl⟩
  | cons st sts ih =>
    rw [runFrom] at h
    split at h
    · rename_i hi
      obtain ⟨i, hgiven, hafter, rfl⟩ := exists_of_interruption? hi
      cases h
      exact ⟨[], st :: sts, _, rfl, .nil _, .interrupted hgiven hafter, rfl⟩
    · split at h
      · rename_i he
        cases h
        exact ⟨[], st :: sts, s, rfl, .nil s, .failed he (Session.leaves_execute hs he),
          Session.warnings_of_failed he⟩
      · rename_i he
        have hchange := s.execute_change ending st
        rw [he] at hchange
        obtain ⟨done, rest, s₁, rfl, hdone, hhalts, hwarnings⟩ :=
          ih (hchange.declares.wellFormed hs) h
        refine ⟨st :: done, rest, s₁, rfl, .cons he hdone, ?_, hwarnings⟩
        rwa [List.flatMap_cons, List.length_append, ← Nat.add_assoc]

/-- A run that fails leaves what the statements before the failure come to, and of the statement that
fails what `Statement.Leaves` says. -/
theorem run_halts (interrupt : Option Interrupt) (stream : Stream) {f : Failure}
    (h : (run interrupt stream).failure = some f) :
    ∃ done rest s, statements stream.tokens = done ++ rest ∧
      Session.Completes stream.failure {} done s ∧ Statement.Performs {} done s.ledger ∧
      Halts interrupt stream.failure s (done.flatMap Statement.tokens).length rest f
        (run interrupt stream).db ∧
      (run interrupt stream).warnings = s.warnings ∧
      (run interrupt stream).stats.incomplete = s.warnings.length := by
  obtain ⟨done, rest, s, hsts, hdone, hhalts, hwarnings⟩ :=
    exists_halts_of_runFrom Database.wellFormed_empty (Prod.ext rfl h :
      runFrom interrupt stream.failure {} 0 (statements stream.tokens) = (_, some f))
  rw [Nat.zero_add] at hhalts
  exact ⟨done, rest, s, hsts, hdone, hdone.performs, hhalts, hwarnings,
    congrArg (fun ds => (List.length ds : Int)) hwarnings⟩

namespace Sample

/-- An incomplete proof, and then a `$c` statement with a constant that is declared already. -/
def redeclaring : Stream where
  tokens := ["$c", "wff", "|-", "$.", "$v", "p", "$.", "wp", "$f", "wff", "p", "$.",
    "guess", "$p", "wff", "p", "$=", "?", "$.", "$c", "->", "(", "|-", ")", "$."].map
      fun word => ⟨word, {}⟩

def redeclared : Failure :=
  (Cause.declaration (.constantTaken "|-")).failure "$c" "" {}

end Sample

theorem redeclaring_halts :
    (run none Sample.redeclaring).failure = some Sample.redeclared ∧
      (run none Sample.redeclaring).db.constants = ["(", "->", "|-", "wff"] ∧
      ∃ done rest s, statements Sample.redeclaring.tokens = done ++ rest ∧
        Session.Completes none {} done s ∧ Statement.Performs {} done s.ledger ∧
        Halts none none s (done.flatMap Statement.tokens).length rest Sample.redeclared
          (run none Sample.redeclaring).db ∧
        (run none Sample.redeclaring).warnings = s.warnings ∧
        (run none Sample.redeclaring).stats.incomplete = s.warnings.length := by
  have h : (run none Sample.redeclaring).failure = some Sample.redeclared := by decide +kernel
  exact ⟨h, by decide +kernel, run_halts none Sample.redeclaring h⟩

end Metamath
