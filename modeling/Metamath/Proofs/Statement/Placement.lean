import Mathlib.Data.List.Forall2
import Metamath.Proofs.Statement.Fault

/-!
# Positions are carried along

A run hands positions on, from the tokens to the events and the failure, and never looks at one. So
whatever is done to the positions of the tokens beforehand can as well be done to those in the outcome
(`run_mapPos`). `mapPos` does it to each of the things that have positions. Where the tokens do not end
in a failure, a run fails with a diagnostic unless it is interrupted (`failure_run`).
-/

namespace Metamath

variable (f : Position → Position)

/-! ## Things with positions -/

def Token.mapPos (t : Token) : Token :=
  { t with pos := f t.pos }

def Diagnostic.mapPos (d : Diagnostic) : Diagnostic :=
  { d with pos := f d.pos }

def Failure.mapPos : Failure → Failure
  | diagnostic d => diagnostic (d.mapPos f)
  | notIncluded pos name e => notIncluded (f pos) name e
  | failure => failure

def Stream.mapPos (s : Stream) : Stream :=
  ⟨s.tokens.map (Token.mapPos f), s.failure.map (Failure.mapPos f)⟩

def Segment.mapPos (s : Segment) : Segment :=
  ⟨s.items.map (Token.mapPos f), s.stop.map (Token.mapPos f)⟩

def ProofText.mapPos : ProofText → ProofText
  | missing => missing
  | normal steps => normal (steps.mapPos f)
  | compressed opening labels letters =>
    compressed (opening.mapPos f) (labels.mapPos f) (letters.mapPos f)

def Body.mapPos : Body → Body
  | missing => missing
  | unknown keyword => unknown (keyword.mapPos f)
  | floating keyword fields => floating (keyword.mapPos f) (fields.map (Token.mapPos f))
  | essential keyword expr => essential (keyword.mapPos f) (expr.mapPos f)
  | axiomatic keyword expr => axiomatic (keyword.mapPos f) (expr.mapPos f)
  | provable keyword expr proof => provable (keyword.mapPos f) (expr.mapPos f) (proof.mapPos f)

def Statement.mapPos : Statement → Statement
  | constants keyword symbols => constants (keyword.mapPos f) (symbols.mapPos f)
  | vars keyword symbols => vars (keyword.mapPos f) (symbols.mapPos f)
  | disjoint keyword symbols => disjoint (keyword.mapPos f) (symbols.mapPos f)
  | openBlock keyword => openBlock (keyword.mapPos f)
  | closeBlock keyword => closeBlock (keyword.mapPos f)
  | labelled label body => labelled (label.mapPos f) (body.mapPos f)

def Event.mapPos : Event → Event
  | scopeOpened depth pos => scopeOpened depth (f pos)
  | scopeClosed depth pos => scopeClosed depth (f pos)
  | incompleteProof label pos => incompleteProof label (f pos)
  | event => event

def Session.mapPos (s : Session) : Session :=
  ⟨s.db, s.openings.map f, s.events.map (Event.mapPos f)⟩

def Step.mapPos (r : Step) : Step :=
  (r.1.mapPos f, r.2.map (Failure.mapPos f))

def Outcome.mapPos (o : Outcome) : Outcome :=
  ⟨o.session.mapPos f, o.failure.map (Failure.mapPos f)⟩

@[simp] theorem Token.text_mapPos (t : Token) : (t.mapPos f).text = t.text := rfl

@[simp] theorem Token.pos_mapPos (t : Token) : (t.mapPos f).pos = f t.pos := rfl

@[simp] theorem map_text_map_mapPos (ts : List Token) :
    (ts.map (Token.mapPos f)).map Token.text = ts.map Token.text := by
  simp

@[simp] theorem Cause.mapPos_failure (cause : Cause) (stmt : String) (label : Label)
    (pos : Position) :
    (cause.failure stmt label pos).mapPos f = cause.failure stmt label (f pos) := rfl

@[simp] theorem Session.db_mapPos (s : Session) : (s.mapPos f).db = s.db := rfl

@[simp] theorem Session.mapPos_log (s : Session) (e : Event) :
    (s.log e).mapPos f = (s.mapPos f).log (e.mapPos f) := by
  simp [Session.mapPos, Session.log]

@[simp] theorem Session.mapPos_mk (s : Session) (db : Database) :
    Session.mapPos f { s with db } = { s.mapPos f with db } := rfl

@[simp] theorem Step.mapPos_mk (s : Session) (failure : Option Failure) :
    Step.mapPos f (s, failure) = (s.mapPos f, failure.map (Failure.mapPos f)) := rfl

/-! ## Dividing tokens into statements -/

@[simp] theorem Segment.tokens_mapPos (s : Segment) :
    (s.mapPos f).tokens = s.tokens.map (Token.mapPos f) := by
  obtain ⟨items, _ | stop⟩ := s <;> simp [Segment.tokens, Segment.mapPos]

@[simp] theorem Statement.tokens_mapPos (st : Statement) :
    (st.mapPos f).tokens = st.tokens.map (Token.mapPos f) := by
  cases st with
  | labelled label body =>
    cases body with
    | provable keyword expr proof =>
      cases proof <;>
        simp [Statement.tokens, Statement.mapPos, Body.tokens, Body.mapPos, ProofText.tokens,
          ProofText.mapPos]
    | _ => simp [Statement.tokens, Statement.mapPos, Body.tokens, Body.mapPos]
  | _ => simp [Statement.tokens, Statement.mapPos]

theorem Segment.read_mapPos (terminator : String) (ts : List Token) :
    Segment.read terminator (ts.map (Token.mapPos f)) =
      ((Segment.read terminator ts).1.mapPos f,
        (Segment.read terminator ts).2.map (Token.mapPos f)) := by
  induction ts with
  | nil => rfl
  | cons t ts ih =>
    by_cases ht : t.text = terminator
    · simp [Segment.read, Segment.mapPos, ht]
    · simp [Segment.read, Segment.mapPos, ht, ih]

theorem ProofText.read_mapPos (ts : List Token) :
    ProofText.read (ts.map (Token.mapPos f)) =
      ((ProofText.read ts).1.mapPos f, (ProofText.read ts).2.map (Token.mapPos f)) := by
  cases ts with
  | nil => rfl
  | cons t ts =>
    have hsteps := Segment.read_mapPos f "$." (t :: ts)
    rw [List.map_cons] at hsteps ⊢
    simp only [ProofText.read, Token.text_mapPos, Segment.read_mapPos, hsteps]
    split_ifs <;> rfl

theorem Body.read_mapPos (ts : List Token) :
    Body.read (ts.map (Token.mapPos f)) =
      ((Body.read ts).1.mapPos f, (Body.read ts).2.map (Token.mapPos f)) := by
  cases ts with
  | nil => rfl
  | cons k ts =>
    simp only [Body.read, List.map_cons, Token.text_mapPos, Segment.read_mapPos,
      ProofText.read_mapPos]
    split_ifs <;> simp [Body.mapPos]

theorem Statement.read_mapPos (t : Token) (ts : List Token) :
    Statement.read (t.mapPos f) (ts.map (Token.mapPos f)) =
      ((Statement.read t ts).1.mapPos f, (Statement.read t ts).2.map (Token.mapPos f)) := by
  simp only [Statement.read, Token.text_mapPos, Segment.read_mapPos, Body.read_mapPos]
  split_ifs <;> rfl

theorem statements_mapPos (ts : List Token) :
    statements (ts.map (Token.mapPos f)) = (statements ts).map (Statement.mapPos f) := by
  fun_induction statements ts with
  | case1 => rw [List.map_nil, statements]; rfl
  | case2 t ts ih => rw [List.map_cons, statements, Statement.read_mapPos, ih, List.map_cons]

/-! ## Carrying out statements -/

namespace Session

variable (s : Session) (ending : Option Failure) (label : Token)

theorem declareAll_mapPos (declare : Database → Symbol → Except DeclarationError Database)
    (stmt : String) (ts : List Token) :
    (s.mapPos f).declareAll declare stmt (ts.map (Token.mapPos f)) =
      Step.mapPos f (s.declareAll declare stmt ts) := by
  induction ts generalizing s with
  | nil => rfl
  | cons t ts ih =>
    simp only [List.map_cons, declareAll, db_mapPos, Token.text_mapPos]
    cases declare s.db t.text with
    | error e => rfl
    | ok db => exact ih { s with db }

theorem executeSymbols_mapPos (declare : Database → Symbol → Except DeclarationError Database)
    (stmt : String) (keyword : Token) (symbols : Segment) :
    (s.mapPos f).executeSymbols declare stmt (ending.map (Failure.mapPos f)) (keyword.mapPos f)
        (symbols.mapPos f) =
      Step.mapPos f (s.executeSymbols declare stmt ending keyword symbols) := by
  obtain ⟨items, _ | stop⟩ := symbols
  · cases ending <;> rfl
  · cases items with
    | nil => rfl
    | cons t ts => exact declareAll_mapPos f s declare stmt (t :: ts)

theorem executeDisjoint_mapPos (keyword : Token) (symbols : Segment) :
    (s.mapPos f).executeDisjoint (ending.map (Failure.mapPos f)) (keyword.mapPos f)
        (symbols.mapPos f) =
      Step.mapPos f (s.executeDisjoint ending keyword symbols) := by
  obtain ⟨items, _ | stop⟩ := symbols
  · cases ending <;> rfl
  · simp only [executeDisjoint, Segment.mapPos, Option.map_some, map_text_map_mapPos, db_mapPos]
    cases s.db.addDisjoint (items.map Token.text) <;> rfl

theorem executeOpen_mapPos (keyword : Token) :
    (s.mapPos f).executeOpen (keyword.mapPos f) = Step.mapPos f (s.executeOpen keyword) := by
  rw [executeOpen, executeOpen, Step.mapPos_mk, mapPos_log]
  rfl

theorem executeClose_mapPos (keyword : Token) :
    (s.mapPos f).executeClose (keyword.mapPos f) = Step.mapPos f (s.executeClose keyword) := by
  rw [executeClose, executeClose, db_mapPos]
  cases s.db.popScope with
  | error e => rfl
  | ok db =>
    simp only [Step.mapPos_mk, mapPos_log]
    simp [mapPos, Event.mapPos]

theorem unfinished_mapPos (stmt : String) :
    unfinished (ending.map (Failure.mapPos f)) stmt (label.mapPos f) =
      (unfinished ending stmt label).mapPos f := by
  cases ending <;> rfl

theorem executeFloating_mapPos (fields : List Token) :
    (s.mapPos f).executeFloating (ending.map (Failure.mapPos f)) (label.mapPos f)
        (fields.map (Token.mapPos f)) =
      Step.mapPos f (s.executeFloating ending label fields) := by
  rcases fields with _ | ⟨typecode, _ | ⟨v, _ | ⟨stop, _ | ⟨t, ts⟩⟩⟩⟩
  case cons.cons.cons.nil =>
    by_cases hstop : stop.text = "$."
    · cases hadd : s.db.addFloating label.text typecode.text v.text <;>
        simp [executeFloating, hstop, hadd, apply_ite f]
    · simp [executeFloating, hstop]
  all_goals simp [executeFloating, unfinished_mapPos]

theorem checkedExpr_mapPos (stmt : String) (body : Segment) :
    (s.mapPos f).checkedExpr (ending.map (Failure.mapPos f)) stmt (label.mapPos f)
        (body.mapPos f) =
      (s.checkedExpr ending stmt label body).mapError (Failure.mapPos f) := by
  obtain ⟨items, _ | stop⟩ := body
  · simp [checkedExpr, Segment.mapPos, unfinished_mapPos, Except.mapError]
  · simp only [checkedExpr, Segment.mapPos, Option.map_some, map_text_map_mapPos, db_mapPos,
      Token.text_mapPos]
    cases s.db.checkExpr stmt label.text (items.map Token.text) with
    | error ie =>
      obtain ⟨i, e⟩ := ie
      cases h : items[i]? <;> simp [Except.mapError, h]
    | ok _ => rfl

theorem executeEssential_mapPos (body : Segment) :
    (s.mapPos f).executeEssential (ending.map (Failure.mapPos f)) (label.mapPos f)
        (body.mapPos f) =
      Step.mapPos f (s.executeEssential ending label body) := by
  rw [executeEssential, executeEssential, checkedExpr_mapPos]
  cases s.checkedExpr ending "$e" label body with
  | error failure => rfl
  | ok e =>
    simp only [Except.mapError, db_mapPos, Token.text_mapPos]
    cases s.db.addEssential label.text e <;> rfl

theorem executeAxiomatic_mapPos (body : Segment) :
    (s.mapPos f).executeAxiomatic (ending.map (Failure.mapPos f)) (label.mapPos f)
        (body.mapPos f) =
      Step.mapPos f (s.executeAxiomatic ending label body) := by
  rw [executeAxiomatic, executeAxiomatic, checkedExpr_mapPos]
  cases s.checkedExpr ending "$a" label body with
  | error failure => rfl
  | ok e =>
    simp only [Except.mapError, db_mapPos, Token.text_mapPos]
    cases s.db.addAssertion label.text .axiomatic e with
    | error e => rfl
    | ok r => simp [Event.mapPos]

theorem labelFault?_mapPos : (s.mapPos f).labelFault? = s.labelFault? := rfl

theorem firstFault?_mapPos (thm : Assertion) (fault? : Label → Option Cause) (ts : List Token) :
    firstFault? thm fault? (ts.map (Token.mapPos f)) =
      (firstFault? thm fault? ts).map (Failure.mapPos f) := by
  induction ts with
  | nil => rfl
  | cons t ts ih =>
    simp only [firstFault?, List.map_cons, List.findSome?_cons, Token.text_mapPos] at ih ⊢
    cases fault? t.text with
    | none => exact ih
    | some cause => rfl

theorem conclude_mapPos (place : Nat → Position) (v : Verdict) :
    (s.mapPos f).conclude (label.mapPos f) (fun i => f (place i)) v =
      Step.mapPos f (s.conclude label place v) := by
  obtain ⟨incomplete, _ | ⟨i, e⟩⟩ := v
  · cases incomplete <;> simp [conclude, Event.mapPos]
  · rfl

theorem executeProof_mapPos (thm : Assertion) (proof : ProofText) :
    (s.mapPos f).executeProof (ending.map (Failure.mapPos f)) (label.mapPos f) thm
        (proof.mapPos f) =
      Step.mapPos f (s.executeProof ending label thm proof) := by
  cases proof with
  | missing => simp [executeProof, ProofText.mapPos, unfinished_mapPos]
  | normal steps =>
    obtain ⟨items, stop⟩ := steps
    simp only [executeProof, ProofText.mapPos, Segment.mapPos, firstFault?_mapPos,
      labelFault?_mapPos]
    cases firstFault? thm (s.labelFault? thm false) items with
    | some failure => rfl
    | none =>
      cases stop with
      | none => simp [unfinished_mapPos]
      | some stop =>
        simp only [Option.map_none, Option.map_some, map_text_map_mapPos, db_mapPos,
          ← conclude_mapPos]
        congr
        funext i
        cases h : items[i]? <;> simp [h]
  | compressed opening labels letters =>
    obtain ⟨items, stop⟩ := labels
    obtain ⟨chunks, stop'⟩ := letters
    simp only [executeProof, ProofText.mapPos, Segment.mapPos, firstFault?_mapPos,
      labelFault?_mapPos]
    cases firstFault? thm (s.labelFault? thm true) items with
    | some failure => rfl
    | none =>
      cases stop with
      | none => simp [unfinished_mapPos]
      | some stop =>
        simp only [Option.map_none, Option.map_some, Token.text_mapPos]
        cases firstFault? thm _ chunks with
        | some failure => rfl
        | none =>
          cases stop' with
          | none => simp [unfinished_mapPos]
          | some stop' =>
            simp only [Option.map_none, Option.map_some, map_text_map_mapPos, db_mapPos,
              ← conclude_mapPos, List.flatMap_map, Token.text_mapPos]
            cases chunks <;> rfl

theorem executeProvable_mapPos (body : Segment) (proof : ProofText) :
    (s.mapPos f).executeProvable (ending.map (Failure.mapPos f)) (label.mapPos f)
        (body.mapPos f) (proof.mapPos f) =
      Step.mapPos f (s.executeProvable ending label body proof) := by
  rw [executeProvable, executeProvable, checkedExpr_mapPos]
  cases s.checkedExpr ending "$p" label body with
  | error failure => rfl
  | ok e =>
    simp only [Except.mapError, db_mapPos, Token.text_mapPos]
    cases s.db.addAssertion label.text .provable e with
    | error e => rfl
    | ok r => exact executeProof_mapPos f { s with db := r.1 } ending label r.2 proof

theorem executeBody_mapPos (body : Body) :
    (s.mapPos f).executeBody (ending.map (Failure.mapPos f)) (label.mapPos f) (body.mapPos f) =
      Step.mapPos f (s.executeBody ending label body) := by
  cases body with
  | missing => cases ending <;> rfl
  | unknown keyword => rfl
  | floating keyword fields => exact executeFloating_mapPos f s ending label fields
  | essential keyword expr => exact executeEssential_mapPos f s ending label expr
  | axiomatic keyword expr => exact executeAxiomatic_mapPos f s ending label expr
  | provable keyword expr proof => exact executeProvable_mapPos f s ending label expr proof

theorem execute_mapPos (st : Statement) :
    (s.mapPos f).execute (ending.map (Failure.mapPos f)) (st.mapPos f) =
      Step.mapPos f (s.execute ending st) := by
  cases st with
  | constants keyword symbols => exact executeSymbols_mapPos f s ending _ "$c" keyword symbols
  | vars keyword symbols => exact executeSymbols_mapPos f s ending _ "$v" keyword symbols
  | disjoint keyword symbols => exact executeDisjoint_mapPos f s ending keyword symbols
  | openBlock keyword => exact executeOpen_mapPos f s keyword
  | closeBlock keyword => exact executeClose_mapPos f s keyword
  | labelled label body =>
    by_cases hl : isLabel label.text
    · cases hc : s.db.checkLabel label.text with
      | error e => simp [Statement.mapPos, execute, hl, hc]
      | ok _ => simp [Statement.mapPos, execute, hl, hc, executeBody_mapPos]
    · simp [Statement.mapPos, execute, hl]

theorem close_mapPos : (s.mapPos f).close (ending.map (Failure.mapPos f)) =
    Step.mapPos f (s.close ending) := by
  obtain ⟨db, openings, events⟩ := s
  cases ending with
  | some failure => rfl
  | none => cases openings <;> rfl

end Session

/-! ## Runs -/

theorem interruption?_mapPos (interrupt : Option Interrupt) (taken : Nat) :
    (interruption? interrupt taken).map (Failure.mapPos f) = interruption? interrupt taken := by
  unfold interruption?
  repeat' split
  all_goals rfl

theorem runFrom_mapPos (interrupt : Option Interrupt) (ending : Option Failure) (s : Session)
    (taken : Nat) (sts : List Statement) :
    runFrom interrupt (ending.map (Failure.mapPos f)) (s.mapPos f) taken
        (sts.map (Statement.mapPos f)) =
      Step.mapPos f (runFrom interrupt ending s taken sts) := by
  induction sts generalizing s taken with
  | nil =>
    have hi := interruption?_mapPos f interrupt taken
    simp only [List.map_nil, runFrom]
    cases h : interruption? interrupt taken with
    | some failure =>
      rw [h] at hi
      simp [hi]
    | none => exact Session.close_mapPos f s ending
  | cons st sts ih =>
    have hi := interruption?_mapPos f interrupt taken
    simp only [List.map_cons, runFrom, Session.execute_mapPos, Statement.tokens_mapPos,
      List.length_map]
    cases h : interruption? interrupt taken with
    | some failure =>
      rw [h] at hi
      simp [hi]
    | none =>
      obtain ⟨s', _ | failure⟩ := s.execute ending st
      · exact ih s' _
      · rfl

/-- What is done to the positions of the tokens is done to those of the outcome. -/
theorem run_mapPos (interrupt : Option Interrupt) (stream : Stream) :
    run interrupt (stream.mapPos f) = (run interrupt stream).mapPos f := by
  have h := runFrom_mapPos f interrupt stream.failure {} 0 (statements stream.tokens)
  simp only [run, Stream.mapPos, statements_mapPos]
  rw [Session.mapPos] at h
  simp only [List.map_nil, Array.map_empty] at h
  rw [h]
  rfl

/-! ## Runs on the same words -/

/-- Tokens that do not end in a failure bring a run to fail with a diagnostic, unless it is
interrupted. -/
theorem failure_run {interrupt : Option Interrupt} {stream : Stream} {failure : Failure}
    (hs : stream.failure = none) (h : (run interrupt stream).failure = some failure) :
    (∃ d, failure = .diagnostic d) ∨
      ∃ i, interrupt = some i ∧ failure = .interrupted i.cause := by
  obtain hf | hi | ⟨d, hd, -⟩ := run_fault h
  · rw [hs] at hf
    cases hf
  · exact .inr hi
  · exact .inl ⟨d, hd⟩

@[simp] theorem Event.warning?_mapPos (e : Event) :
    (e.mapPos f).warning? = e.warning?.map (Diagnostic.mapPos f) := by
  cases e <;> rfl

namespace Outcome

variable (o : Outcome)

@[simp] theorem db_mapPos : (o.mapPos f).db = o.db := rfl

@[simp] theorem warnings_mapPos : (o.mapPos f).warnings = o.warnings.map (Diagnostic.mapPos f) := by
  simp [warnings, mapPos, Session.mapPos, List.filterMap_map, List.map_filterMap]

@[simp] theorem stats_mapPos : (o.mapPos f).stats = o.stats := by
  simp [stats]

end Outcome

/-- The two diagnostics differ at most in their positions. -/
structure Diagnostic.Alike (d d' : Diagnostic) : Prop where
  kind : d.kind = d'.kind
  stmt : d.stmt = d'.stmt
  label : d.label = d'.label
  message : d.message = d'.message

theorem Diagnostic.alike_of_mapPos {f : Position → Position} {d d' : Diagnostic}
    (h : d.mapPos f = d'.mapPos f) : d.Alike d' where
  kind := congrArg (·.kind) h
  stmt := congrArg (·.stmt) h
  label := congrArg (·.label) h
  message := congrArg (·.message) h

/-- The two outcomes of a run with that interruption differ at most in positions. -/
structure Outcome.Alike (interrupt : Option Interrupt) (o o' : Outcome) : Prop where
  db : o.db = o'.db
  stats : o.stats = o'.stats
  warnings : List.Forall₂ Diagnostic.Alike o.warnings o'.warnings
  failure : (o.failure = none ∧ o'.failure = none) ∨
    (∃ d d', o.failure = some (.diagnostic d) ∧ o'.failure = some (.diagnostic d') ∧
      d.Alike d') ∨
    ∃ i, interrupt = some i ∧ o.failure = some (.interrupted i.cause) ∧
      o'.failure = some (.interrupted i.cause)

theorem Failure.mapPos_eq_diagnostic_iff {f : Position → Position} {failure : Failure}
    {d : Diagnostic} :
    failure.mapPos f = .diagnostic d ↔ ∃ d', failure = .diagnostic d' ∧ d'.mapPos f = d := by
  cases failure <;> simp [Failure.mapPos]

theorem Failure.mapPos_eq_interrupted_iff {f : Position → Position} {failure : Failure}
    {i : Interruption} : failure.mapPos f = .interrupted i ↔ failure = .interrupted i := by
  cases failure <;> simp [Failure.mapPos]

theorem Outcome.failure_of_mapPos {f : Position → Position} {o o' : Outcome}
    {interrupt : Option Interrupt}
    (hf : ∀ failure, o.failure = some failure →
      (∃ d, failure = .diagnostic d) ∨ ∃ i, interrupt = some i ∧ failure = .interrupted i.cause)
    (h : o.failure.map (Failure.mapPos f) = o'.failure.map (Failure.mapPos f)) :
    (o.failure = none ∧ o'.failure = none) ∨
      (∃ d d', o.failure = some (.diagnostic d) ∧ o'.failure = some (.diagnostic d') ∧
        d.Alike d') ∨
      ∃ i, interrupt = some i ∧ o.failure = some (.interrupted i.cause) ∧
        o'.failure = some (.interrupted i.cause) := by
  cases ho : o.failure with
  | none =>
    rw [ho, Option.map_none, eq_comm, Option.map_eq_none_iff] at h
    exact .inl ⟨rfl, h⟩
  | some failure =>
    rw [ho, Option.map_some, eq_comm, Option.map_eq_some_iff] at h
    obtain ⟨failure', ho', heq⟩ := h
    rw [ho']
    obtain ⟨d, rfl⟩ | ⟨i, hi, rfl⟩ := hf failure ho
    · obtain ⟨d', rfl, hd⟩ := Failure.mapPos_eq_diagnostic_iff.1 heq
      exact .inr (.inl ⟨d, d', rfl, rfl, Diagnostic.alike_of_mapPos hd.symm⟩)
    · obtain rfl := Failure.mapPos_eq_interrupted_iff.1 heq
      exact .inr (.inr ⟨i, hi, rfl, rfl⟩)

/-- Of the tokens a run sees only the words. -/
theorem run_alike (interrupt : Option Interrupt) {s s' : Stream} (hs : s.failure = none)
    (hs' : s'.failure = none) (h : s.tokens.map Token.text = s'.tokens.map Token.text) :
    (run interrupt s).Alike interrupt (run interrupt s') := by
  -- nothing is left of the positions under this map
  let f : Position → Position := fun _ => {}
  have htokens : s.tokens.map (Token.mapPos f) = s'.tokens.map (Token.mapPos f) := by
    have hts := congrArg (List.map fun text => (⟨text, {}⟩ : Token)) h
    rwa [List.map_map, List.map_map] at hts
  have heq : (run interrupt s).mapPos f = (run interrupt s').mapPos f := by
    rw [← run_mapPos, ← run_mapPos, Stream.mapPos, Stream.mapPos, htokens, hs, hs']
  refine ⟨?_, ?_, ?_, ?_⟩
  · simpa using congrArg Outcome.db heq
  · simpa using congrArg Outcome.stats heq
  · have hwarnings := congrArg Outcome.warnings heq
    rw [Outcome.warnings_mapPos, Outcome.warnings_mapPos, ← List.forall₂_eq_eq_eq,
      List.forall₂_map_left_iff, List.forall₂_map_right_iff] at hwarnings
    exact hwarnings.imp fun _ _ => Diagnostic.alike_of_mapPos
  · exact Outcome.failure_of_mapPos (fun _ => failure_run hs) (congrArg Outcome.failure heq)

end Metamath
