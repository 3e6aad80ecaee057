import Metamath.Proofs.Statement.Execution

/-!
# Where statements fail

A statement that fails does so with the failure that ends the tokens, when it is cut short, or with
a diagnostic of its own. What can be said of its cause follows from what can be said of verdicts on
proofs (`reports_execute`). Such a diagnostic ends the run, stands at one of the tokens of the
statement and has its label, if it has any (`Diagnostic.PointsAt`, `faulted_execute`). Likewise a
warning stands at a token of the statement with the incomplete proof (`warnings_execute`). So all
that a run reports stands at tokens that it was given (`run_fault`, `run_warning`).
-/

namespace Metamath

/-! ## Kinds -/

theorem DeclarationError.isFatal_kind (e : DeclarationError) : e.kind.isFatal := by
  cases e <;> rfl

theorem UnifyError.isFatal_kind (e : UnifyError) : e.kind.isFatal := by
  cases e <;> rfl

theorem ProofError.isFatal_kind (e : ProofError) : e.kind.isFatal := by
  cases e with
  | application a e => exact e.isFatal_kind
  | _ => rfl

theorem StatementError.isFatal_kind (e : StatementError) : e.kind.isFatal := by
  cases e <;> rfl

/-- Only an incomplete proof does not end a run. -/
theorem Cause.isFatal_kind {c : Cause} (h : ∀ thm, c ≠ .incompleteProof thm) : c.kind.isFatal := by
  cases c with
  | declaration e => exact e.isFatal_kind
  | unify a e => exact e.isFatal_kind
  | proof thm e => exact e.isFatal_kind
  | statement e => exact e.isFatal_kind
  | incompleteProof thm => exact absurd rfl (h thm)
  | _ => rfl

/-! ## One statement -/

/-- The label of a statement. It is empty if there is none. -/
def Statement.label : Statement → Label
  | labelled label _ => label.text
  | _ => ""

/-- A diagnostic that ends a run, at one of some tokens, with a label or without. -/
structure Diagnostic.PointsAt (label : Label) (ts : List Token) (d : Diagnostic) : Prop where
  fatal : d.kind.isFatal
  pos : d.pos ∈ ts.map Token.pos
  label : d.label = "" ∨ d.label = label

/-- If the step fails, it is with the failure that ends the tokens or with a diagnostic of its own.
-/
def Step.Faulted (ending : Option Failure) (label : Label) (ts : List Token) (r : Step) : Prop :=
  ∀ f ∈ r.2, ending = some f ∨ ∃ d : Diagnostic, f = .diagnostic d ∧ d.PointsAt label ts

/-- Causes that have a property, with all those that can come up whatever the proofs are. -/
structure Cause.Common (P : Cause → Prop) : Prop where
  declaration : ∀ e, P (.declaration e)
  statement : ∀ e, P (.statement e)
  selfReference : ∀ thm, P (.proof thm .selfReference)
  inactiveStep : ∀ thm l, P (.proof thm (.inactiveStep l))

/-- A diagnostic with a cause that has a property, at one of some tokens, with a label or without.
-/
structure Diagnostic.Arises (P : Cause → Prop) (label : Label) (ts : List Token) (d : Diagnostic) :
    Prop where
  cause : P d.cause
  pos : d.pos ∈ ts.map Token.pos
  label : d.label = "" ∨ d.label = label

/-- If the step fails, it is with the failure that ends the tokens or with a diagnostic whose cause
has the property. -/
def Step.Reports (P : Cause → Prop) (ending : Option Failure) (label : Label) (ts : List Token)
    (r : Step) : Prop :=
  ∀ f ∈ r.2, ending = some f ∨ ∃ d : Diagnostic, f = .diagnostic d ∧ d.Arises P label ts

namespace Step

variable {P : Cause → Prop} {ending : Option Failure} {label : Label} {ts : List Token} (s : Session)

theorem reports_accepted : Reports P ending label ts (s, none) := by
  simp [Reports]

theorem reports_failure {cause : Cause} (hc : P cause) (stmt : String) {l : Label}
    (hl : l = "" ∨ l = label) {t : Token} (ht : t ∈ ts) :
    Reports P ending label ts (s, some (cause.failure stmt l t.pos)) := by
  rintro f ⟨⟩
  exact .inr ⟨_, rfl, hc, List.mem_map_of_mem ht, hl⟩

theorem reports_ending {cause : Cause} (hc : P cause) (stmt : String) {l : Label}
    (hl : l = "" ∨ l = label) {t : Token} (ht : t ∈ ts) :
    Reports P ending label ts (s, some (ending.getD (cause.failure stmt l t.pos))) := by
  cases ending with
  | none => exact reports_failure s hc stmt hl ht
  | some f =>
    rintro f' ⟨⟩
    exact .inl rfl

end Step

namespace Session

open Step

variable {P : Cause → Prop} (hP : Cause.Common P) {ending : Option Failure} {ts : List Token}
  (s : Session)

include hP

theorem reports_declareAll (declare : Database → Symbol → Except DeclarationError Database)
    (stmt : String) {symbols : List Token} (h : symbols ⊆ ts) :
    Reports P ending "" ts (s.declareAll declare stmt symbols) := by
  fun_induction declareAll declare stmt s symbols with
  | case1 s => exact reports_accepted s
  | case2 s t symbols e he =>
    exact reports_failure s (hP.declaration e) stmt (.inl rfl) (h (.head _))
  | case3 s t symbols db hdb ih => exact ih fun u hu => h (.tail _ hu)

theorem reports_executeSymbols (declare : Database → Symbol → Except DeclarationError Database)
    (stmt : String) {keyword : Token} (hk : keyword ∈ ts) {symbols : Segment}
    (h : symbols.items ⊆ ts) :
    Reports P ending "" ts (s.executeSymbols declare stmt ending keyword symbols) := by
  fun_cases executeSymbols declare stmt ending s keyword symbols with
  | case1 => exact reports_ending s (hP.statement _) stmt (.inl rfl) hk
  | case2 => exact reports_failure s (hP.statement _) stmt (.inl rfl) hk
  | case3 => exact reports_declareAll hP s declare stmt h

theorem reports_executeDisjoint {keyword : Token} (hk : keyword ∈ ts) (symbols : Segment) :
    Reports P ending "" ts (s.executeDisjoint ending keyword symbols) := by
  fun_cases executeDisjoint ending s keyword symbols with
  | case1 => exact reports_ending s (hP.statement _) "$d" (.inl rfl) hk
  | case2 => exact reports_failure s (hP.declaration _) "$d" (.inl rfl) hk
  | case3 => exact reports_accepted _

theorem reports_executeClose {keyword : Token} (hk : keyword ∈ ts) :
    Reports P ending "" ts (s.executeClose keyword) := by
  fun_cases executeClose s keyword with
  | case1 => exact reports_failure s (hP.declaration _) _ (.inl rfl) hk
  | case2 => exact reports_accepted _

variable {label : Token} (hl : label ∈ ts)

include hl

theorem reports_unfinished (stmt : String) :
    Reports P ending label.text ts (s, some (unfinished ending stmt label)) :=
  reports_ending s (hP.statement _) stmt (.inr rfl) hl

theorem reports_executeFloating {fields : List Token} (h : fields ⊆ ts) :
    Reports P ending label.text ts (s.executeFloating ending label fields) := by
  fun_cases executeFloating ending s label fields with
  | case1 typecode v stop =>
    exact reports_failure s (hP.statement _) "$f" (.inr rfl) (h (by simp))
  | case2 typecode v stop hstop e he pos =>
    by_cases hc : e.kind = .undeclaredSymbol ∧ !s.db.isConstant typecode.text
    · have hpos : pos = typecode.pos := if_pos hc
      rw [hpos]
      exact reports_failure s (hP.declaration e) "$f" (.inr rfl) (h (by simp))
    · have hpos : pos = v.pos := if_neg hc
      rw [hpos]
      exact reports_failure s (hP.declaration e) "$f" (.inr rfl) (h (by simp))
  | case3 => exact reports_accepted _
  | case4 => exact reports_unfinished hP s hl "$f"

theorem reports_of_checkedExpr {stmt : String} {body : Segment} (h : body.items ⊆ ts) {f : Failure}
    (hf : s.checkedExpr ending stmt label body = .error f) :
    Reports P ending label.text ts (s, some f) := by
  revert hf
  fun_cases checkedExpr ending s stmt label body with
  | case1 =>
    rintro ⟨⟩
    exact reports_unfinished hP s hl stmt
  | case2 stop hs i e he pos =>
    rintro ⟨⟩
    -- an index beyond the expression stands for the label
    cases hi : body.items[i]? with
    | none =>
      have hpos : pos = label.pos := by simp [pos, hi]
      rw [hpos]
      exact reports_failure s (hP.declaration e) stmt (.inr rfl) hl
    | some t =>
      have hpos : pos = t.pos := by simp [pos, hi]
      rw [hpos]
      exact reports_failure s (hP.declaration e) stmt (.inr rfl) (h (List.mem_of_getElem? hi))
  | case3 => rintro ⟨⟩

omit hP hl in
theorem reports_of_firstFault? {thm : Assertion} {fault? : Label → Option Cause}
    (hc : ∀ l cause, fault? l = some cause → P cause) {us : List Token} (h : us ⊆ ts) {f : Failure}
    (hf : firstFault? thm fault? us = some f) : Reports P ending thm.label ts (s, some f) := by
  obtain ⟨t, ht, hf⟩ := List.exists_of_findSome?_eq_some hf
  obtain ⟨cause, hcause, rfl⟩ := Option.map_eq_some_iff.1 hf
  exact reports_failure s (hc _ _ hcause) "$p" (.inr rfl) (h ht)

omit hl in
theorem common_of_labelFault? {thm : Assertion} {compressed : Bool} (l : Label) (cause : Cause)
    (h : s.labelFault? thm compressed l = some cause) : P cause := by
  unfold labelFault? at h
  split_ifs at h <;> obtain rfl := Option.some.inj h
  · exact hP.selfReference _
  · exact hP.statement _
  · exact hP.inactiveStep _ _

omit hP hl in
theorem reports_conclude {place : Nat → Position} (h : ∀ i, place i ∈ ts.map Token.pos) {v : Verdict}
    (hv : ∀ i e, v.failure = some (i, e) → P (.proof label.text e)) :
    Reports P ending label.text ts (s.conclude label place v) := by
  fun_cases conclude s label place v with
  | case1 i e he =>
    obtain ⟨t, ht, hpos⟩ := List.mem_map.1 (h i)
    rw [← hpos]
    exact reports_failure s (hv i e he) "$p" (.inr rfl) ht
  | case2 => exact reports_accepted _
  | case3 => exact reports_accepted _

theorem reports_executeProof {thm : Assertion} (hthm : thm.label = label.text)
    (hproof : ∀ v, HasVerdict s.db thm v → ∀ i e, v.failure = some (i, e) → P (.proof label.text e))
    {proof : ProofText} (h : proof.tokens ⊆ ts) :
    Reports P ending label.text ts (s.executeProof ending label thm proof) := by
  fun_cases executeProof ending s label thm proof with
  | case1 => exact reports_unfinished hP s hl "$p"
  | case2 steps f hf =>
    rw [← hthm]
    refine reports_of_firstFault? s (common_of_labelFault? hP s) ?_ hf
    exact fun t ht => h (List.mem_append_left _ ht)
  | case3 => exact reports_unfinished hP s hl "$p"
  | case4 steps stop hs hf =>
    refine reports_conclude s (fun i => List.mem_map_of_mem (h ?_)) (hproof _ (.inl ⟨_, rfl⟩))
    rw [ProofText.tokens, Segment.tokens, hs]
    cases hi : steps.items[i]? with
    | none => simp
    | some t => simpa using .inl (List.mem_of_getElem? hi)
  | case5 opening labels letters f hf =>
    rw [← hthm]
    refine reports_of_firstFault? s (common_of_labelFault? hP s) ?_ hf
    exact fun t ht => h (by simp [ProofText.tokens, Segment.tokens, ht])
  | case6 => exact reports_unfinished hP s hl "$p"
  | case7 opening labels letters stop hs hf fault? f hf' =>
    rw [← hthm]
    refine reports_of_firstFault? s ?_ ?_ hf'
    · intro l cause hcause
      simp only [fault?] at hcause
      split_ifs at hcause
      obtain rfl := Option.some.inj hcause
      exact hP.statement _
    · exact fun t ht => h (by simp [ProofText.tokens, Segment.tokens, ht])
  | case8 => exact reports_unfinished hP s hl "$p"
  | case9 opening labels letters stop hs hf fault? stop' hs' hf' =>
    refine reports_conclude s (fun _ => List.mem_map_of_mem (h ?_)) (hproof _ (.inr ⟨_, _, rfl⟩))
    rw [ProofText.tokens, Segment.tokens, Segment.tokens, hs']
    cases hi : letters.items with
    | nil => simp
    | cons t rest => simp

theorem reports_executeBody
    (hproof : ∀ e db thm, s.db.addAssertion label.text .provable e = .ok (db, thm) →
      ∀ v, HasVerdict db thm v → ∀ i err, v.failure = some (i, err) → P (.proof label.text err))
    {body : Body} (h : body.tokens ⊆ ts) :
    Reports P ending label.text ts (s.executeBody ending label body) := by
  have hitems : ∀ expr : Segment, expr.tokens ⊆ ts → expr.items ⊆ ts := fun expr he t ht =>
    he (List.mem_append_left _ ht)
  cases body with
  | missing => exact reports_ending s (hP.statement _) "" (.inr rfl) hl
  | unknown keyword => exact reports_failure s (hP.statement _) "" (.inr rfl) (h (.head _))
  | floating keyword fields => exact reports_executeFloating hP s hl fun t ht => h (.tail _ ht)
  | essential keyword expr =>
    have he := hitems expr fun t ht => h (.tail _ ht)
    rw [executeBody]
    fun_cases executeEssential ending s label expr with
    | case1 f hf => exact reports_of_checkedExpr hP s hl he hf
    | case2 => exact reports_failure s (hP.declaration _) "$e" (.inr rfl) hl
    | case3 => exact reports_accepted _
  | axiomatic keyword expr =>
    have he := hitems expr fun t ht => h (.tail _ ht)
    rw [executeBody]
    fun_cases executeAxiomatic ending s label expr with
    | case1 f hf => exact reports_of_checkedExpr hP s hl he hf
    | case2 => exact reports_failure s (hP.declaration _) "$a" (.inr rfl) hl
    | case3 => exact reports_accepted _
  | provable keyword expr proof =>
    have he := hitems expr fun t ht => h (.tail _ (List.mem_append_left _ ht))
    rw [executeBody]
    fun_cases executeProvable ending s label expr proof with
    | case1 f hf => exact reports_of_checkedExpr hP s hl he hf
    | case2 => exact reports_failure s (hP.declaration _) "$p" (.inr rfl) hl
    | case3 e he' db thm hadd =>
      have hlabel : thm.label = label.text := by
        obtain ⟨-, -, rfl, -⟩ := Database.addAssertion_eq_ok_iff.1 hadd
        rfl
      exact reports_executeProof hP { s with db } hl hlabel (hproof e db thm hadd) fun t ht =>
        h (.tail _ (List.mem_append_right _ ht))

omit hl in
/-- A statement reports a cause with the property, if the verdicts on proofs have it as well. -/
theorem reports_execute
    (hproof : ∀ l e db thm, s.db.addAssertion l .provable e = .ok (db, thm) →
      ∀ v, HasVerdict db thm v → ∀ i err, v.failure = some (i, err) → P (.proof l err))
    (ending : Option Failure) (st : Statement) :
    Reports P ending st.label st.tokens (s.execute ending st) := by
  have hitems : ∀ (keyword : Token) (symbols : Segment),
      symbols.items ⊆ keyword :: symbols.tokens := fun keyword symbols t ht =>
    .tail _ (List.mem_append_left _ ht)
  fun_cases execute ending s st with
  | case1 keyword symbols =>
    exact reports_executeSymbols hP s _ "$c" (.head _) (hitems keyword symbols)
  | case2 keyword symbols =>
    exact reports_executeSymbols hP s _ "$v" (.head _) (hitems keyword symbols)
  | case3 keyword symbols => exact reports_executeDisjoint hP s (.head _) symbols
  | case4 keyword => exact reports_accepted _
  | case5 keyword => exact reports_executeClose hP s (.head _)
  | case6 label body => exact reports_failure s (hP.statement _) "" (.inl rfl) (.head _)
  | case7 label body => exact reports_failure s (hP.declaration _) "" (.inr rfl) (.head _)
  | case8 label body =>
    exact reports_executeBody hP s (.head _) (hproof label.text) fun t ht => .tail _ ht

omit hP hl in
/-- A statement that is not cut short fails with a diagnostic at one of its tokens. -/
theorem faulted_execute (ending : Option Failure) (st : Statement) :
    Faulted ending st.label st.tokens (s.execute ending st) := by
  have hcommon : Cause.Common fun c => ∀ thm, c ≠ .incompleteProof thm := by
    constructor <;> simp
  have hreports := reports_execute hcommon s (by simp) ending st
  intro f hf
  refine (hreports f hf).imp_right ?_
  rintro ⟨d, rfl, hcause, hpos, hlabel⟩
  have hfatal : d.cause.kind.isFatal := Cause.isFatal_kind hcause
  exact ⟨d, rfl, hfatal, hpos, hlabel⟩

end Session

/-! ## Warnings -/

/-- The warning of an incomplete proof, at the label of its theorem. -/
def Token.incompleteProof (label : Token) : Diagnostic :=
  { cause := .incompleteProof label.text, stmt := "$p", label := label.text, pos := label.pos }

namespace Session

variable (ending : Option Failure) (s : Session)

theorem warnings_executeSymbols {declare : Database → Symbol → Except DeclarationError Database}
    {kind : Symbol → Declaration} (hk : ∀ x, (kind x).Unproved)
    (hd : ∀ db x, declare db x = Database.declare db (kind x)) (stmt : String) (keyword : Token)
    (symbols : Segment) :
    (s.executeSymbols declare stmt ending keyword symbols).1.warnings = s.warnings := by
  fun_cases executeSymbols declare stmt ending s keyword symbols with
  | case3 => exact (declareAll_change kind hk hd stmt s symbols.items).2
  | _ => rfl

theorem warnings_executeProof (label : Token) (thm : Assertion) (proof : ProofText) :
    (s.executeProof ending label thm proof).1.warnings = s.warnings ∨
      (s.executeProof ending label thm proof).1.warnings = s.warnings ++ [label.incompleteProof] := by
  have hconclude : ∀ place v, (s.conclude label place v).1.warnings = s.warnings ∨
      (s.conclude label place v).1.warnings = s.warnings ++ [label.incompleteProof] := by
    intro place v
    fun_cases conclude s label place v with
    | case1 => exact .inl rfl
    | case2 => exact .inr (warnings_log _ _)
    | case3 => exact .inl ((warnings_log _ _).trans (List.append_nil _))
  fun_cases executeProof ending s label thm proof with
  | case4 => exact hconclude _ _
  | case9 => exact hconclude _ _
  | _ => exact .inl rfl

/-- A statement adds no warning but the one for the incomplete proof that it holds. -/
theorem warnings_execute (st : Statement) :
    (s.execute ending st).1.warnings = s.warnings ∨
      ∃ label ∈ st.tokens, (s.execute ending st).1.warnings = s.warnings ++ [label.incompleteProof] := by
  have hlog : ∀ (s' : Session) (e : Event), e.warning? = none → (s'.log e).warnings = s'.warnings :=
    fun s' e he => by rw [warnings_log, he, Option.toList_none, List.append_nil]
  fun_cases execute ending s st with
  | case1 keyword symbols =>
    exact .inl (warnings_executeSymbols ending s
      (fun _ => Declaration.unproved_of_label? (d := .constant _) rfl) (fun _ _ => rfl) _ _ _)
  | case2 keyword symbols =>
    exact .inl (warnings_executeSymbols ending s
      (fun _ => Declaration.unproved_of_label? (d := .var _) rfl) (fun _ _ => rfl) _ _ _)
  | case3 keyword symbols =>
    fun_cases executeDisjoint ending s keyword symbols <;> exact .inl rfl
  | case4 keyword => exact .inl (hlog _ _ rfl)
  | case5 keyword =>
    fun_cases executeClose s keyword with
    | case1 => exact .inl rfl
    | case2 => exact .inl (hlog _ _ rfl)
  | case6 label body => exact .inl rfl
  | case7 label body => exact .inl rfl
  | case8 label body =>
    cases body with
    | missing => exact .inl rfl
    | unknown keyword => exact .inl rfl
    | floating keyword fields =>
      rw [executeBody]
      fun_cases executeFloating ending s label fields <;> exact .inl rfl
    | essential keyword expr =>
      rw [executeBody]
      fun_cases executeEssential ending s label expr <;> exact .inl rfl
    | axiomatic keyword expr =>
      rw [executeBody]
      fun_cases executeAxiomatic ending s label expr with
      | case3 => exact .inl (hlog _ _ rfl)
      | _ => exact .inl rfl
    | provable keyword expr proof =>
      rw [executeBody]
      fun_cases executeProvable ending s label expr proof with
      | case3 e he db thm hadd =>
        exact (warnings_executeProof ending { s with db } label thm proof).imp_right
          fun h => ⟨label, .head _, h⟩
      | _ => exact .inl rfl

/-! ## Runs -/

theorem mem_openings_execute {st : Statement} {pos : Position}
    (h : pos ∈ (s.execute ending st).1.openings) :
    pos ∈ s.openings ∨ pos ∈ st.tokens.map Token.pos := by
  revert h
  fun_cases execute ending s st with
  | case1 => exact fun h => .inl (openings_executeSymbols .. ▸ h)
  | case2 => exact fun h => .inl (openings_executeSymbols .. ▸ h)
  | case3 keyword symbols =>
    fun_cases executeDisjoint ending s keyword symbols <;> exact .inl
  | case4 keyword =>
    intro h
    rcases List.mem_cons.1 h with rfl | h
    · exact .inr (List.mem_map_of_mem (.head _))
    · exact .inl h
  | case5 keyword =>
    fun_cases executeClose s keyword with
    | case1 => exact .inl
    | case2 => exact fun h => .inl (List.mem_of_mem_tail h)
  | case6 => exact .inl
  | case7 => exact .inl
  | case8 => exact fun h => .inl (openings_executeBody .. ▸ h)

end Session

theorem exists_of_interruption? {interrupt : Option Interrupt} {taken : Nat} {f : Failure}
    (h : interruption? interrupt taken = some f) :
    ∃ i, interrupt = some i ∧ i.after ≤ taken ∧ f = .interrupted i.cause := by
  cases interrupt with
  | none => cases h
  | some i =>
    simp only [interruption?] at h
    split_ifs at h with hi
    exact ⟨i, rfl, hi, (Option.some.inj h).symm⟩

variable {interrupt : Option Interrupt} {ending : Option Failure} {ts : List Token}

theorem runFrom_warning {sts : List Statement} (hsts : ∀ st ∈ sts, st.tokens ⊆ ts) {s : Session}
    (hs : ∀ w ∈ s.warnings, ∃ label ∈ ts, w = label.incompleteProof) (taken : Nat) :
    ∀ w ∈ (runFrom interrupt ending s taken sts).1.warnings, ∃ label ∈ ts, w = label.incompleteProof := by
  induction sts generalizing s taken with
  | nil =>
    rw [runFrom]
    split
    · exact hs
    · fun_cases Session.close ending s <;> exact hs
  | cons st sts ih =>
    obtain ⟨hst, hsts⟩ := List.forall_mem_cons.1 hsts
    have hs' : ∀ w ∈ (s.execute ending st).1.warnings, ∃ label ∈ ts, w = label.incompleteProof := by
      rcases s.warnings_execute ending st with hw | ⟨label, hl, hw⟩ <;> rw [hw]
      · exact hs
      · rw [List.forall_mem_append, List.forall_mem_singleton]
        exact ⟨hs, label, hst hl, rfl⟩
    rw [runFrom]
    split
    · exact hs
    · split <;> rename_i he <;> rw [he] at hs'
      · exact hs'
      · exact ih hsts hs' _

theorem runFrom_fault {sts : List Statement} (hsts : ∀ st ∈ sts, st.tokens ⊆ ts) {s : Session}
    (ho : ∀ pos ∈ s.openings, pos ∈ ts.map Token.pos) {taken : Nat} {f : Failure}
    (h : (runFrom interrupt ending s taken sts).2 = some f) :
    ending = some f ∨ (∃ i, interrupt = some i ∧ f = .interrupted i.cause) ∨
      ∃ d : Diagnostic, f = .diagnostic d ∧ d.kind.isFatal ∧ d.pos ∈ ts.map Token.pos := by
  fun_induction runFrom interrupt ending s taken sts with
  | case1 s taken f' hi =>
    obtain ⟨i, hgiven, -, rfl⟩ := exists_of_interruption? (hi.trans h)
    exact .inr (.inl ⟨i, hgiven, rfl⟩)
  | case2 s taken hi =>
    revert h
    fun_cases Session.close ending s with
    | case1 f' => exact .inl
    | case2 => rintro ⟨⟩
    | case3 pos outer ho' =>
      rintro ⟨⟩
      exact .inr (.inr ⟨_, rfl, rfl, ho pos (by simp [ho'])⟩)
  | case3 s taken st rest f' hi =>
    obtain ⟨i, hgiven, -, rfl⟩ := exists_of_interruption? (hi.trans h)
    exact .inr (.inl ⟨i, hgiven, rfl⟩)
  | case4 s taken st rest hi s' f' he =>
    have hst : st.tokens ⊆ ts := hsts st (.head _)
    have hf := s.faulted_execute ending st
    rw [he] at hf
    obtain hf | ⟨d, hd, hpoints⟩ := hf f h
    · exact .inl hf
    · exact .inr (.inr ⟨d, hd, hpoints.fatal, List.map_subset _ hst hpoints.pos⟩)
  | case5 s taken st rest hi s' he ih =>
    obtain ⟨hst, hsts⟩ := List.forall_mem_cons.1 hsts
    refine ih hsts (fun pos hpos => ?_) h
    have hpos' : pos ∈ (s.execute ending st).1.openings := by rwa [he]
    rcases s.mem_openings_execute ending hpos' with hpos' | hpos'
    · exact ho pos hpos'
    · exact List.map_subset _ hst hpos'

theorem tokens_subset_of_mem_statements {st : Statement} (h : st ∈ statements ts) :
    st.tokens ⊆ ts := by
  intro t ht
  rw [← flatMap_tokens_statements ts]
  exact List.mem_flatMap.2 ⟨st, h, ht⟩

/-- A run fails with the failure that ends the tokens, with an interruption, or with a diagnostic
that stands at one of the tokens. -/
theorem run_fault {stream : Stream} {f : Failure} (h : (run interrupt stream).failure = some f) :
    stream.failure = some f ∨ (∃ i, interrupt = some i ∧ f = .interrupted i.cause) ∨
      ∃ d : Diagnostic, f = .diagnostic d ∧ d.kind.isFatal ∧ d.pos ∈ stream.tokens.map Token.pos :=
  runFrom_fault (fun _ => tokens_subset_of_mem_statements) (by simp) h

/-- The warnings of a run stand at labels of theorems. -/
theorem run_warning {stream : Stream} {w : Diagnostic} (h : w ∈ (run interrupt stream).warnings) :
    ∃ label ∈ stream.tokens, w = label.incompleteProof :=
  runFrom_warning (fun _ => tokens_subset_of_mem_statements) (by simp [Session.warnings]) 0 w h

end Metamath
