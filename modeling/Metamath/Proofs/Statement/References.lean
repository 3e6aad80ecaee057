import Metamath.Proofs.Statement.Tally

/-!
# References

Assertions and scopes name hypotheses by their labels, and numbers of a compressed proof are
indexes. In a well-formed database every label leads to a record (`Database.Resolves`), so an
application does not fail for the lack of one, nor does any step of a proof
(`Resolves.not_isDangling_of_step`, `Resolves.not_isDangling_of_compressed_step`). Numbers that
letters can say are in range (`Resolves.inRange`). With the unclosed `${` in step with the open
scopes, a session is `Safe`, and it is so between any two statements of a run (`run_safe`).
-/

namespace Metamath

/-! ## Errors -/

/-- An assertion names a hypothesis that has no record. -/
def UnifyError.IsDangling : UnifyError → Prop
  | hypothesisUndeclared _ => True
  | _ => False

/-- The theorem, or an assertion that its proof applies, names a hypothesis that has no record. -/
def ProofError.IsDangling : ProofError → Prop
  | hypothesisUndeclared _ => True
  | application _ e => e.IsDangling
  | _ => False

def Cause.IsDangling : Cause → Prop
  | unify _ e => e.IsDangling
  | proof _ e => e.IsDangling
  | _ => False

/-! ## Records -/

variable {db : Database} {thm : Assertion}

/-- Every label that is looked up among the hypotheses has its record there. -/
structure Database.Resolves (db : Database) : Prop where
  /-- For the frame of an assertion, the hypotheses of the open scopes are looked up. -/
  scopes : ∀ scope ∈ db.scopes, ∀ h ∈ scope.hypotheses, db.hypothesis? h.label = some h
  /-- For a step of a proof, an active hypothesis is looked up. -/
  active : ∀ l h, db.activeHypothesis? l = some h → db.hypothesis? l = some h
  /-- For an application, the hypotheses of the assertion are looked up, and for a number in a
  compressed proof those of the theorem. -/
  frames : ∀ a ∈ db.assertions, ∀ l ∈ a.hypotheses, ∃ h, db.hypothesis? l = some h
  /-- The typecode and the variable are taken of floating hypotheses. -/
  floating : ∀ l h, db.hypothesis? l = some h → h.isFloating → ∃ typecode v, h.expr = [typecode, v]
  unify : ∀ a ∈ db.assertions, ∀ args e, unify db a args = .error e → ¬ e.IsDangling

theorem not_isDangling_of_matchHypothesis {σ : Substitution} {arg : Expr} {h : Hypothesis}
    {e : UnifyError} (he : matchHypothesis σ arg h = .error e) : ¬ e.IsDangling := by
  revert he
  fun_cases matchHypothesis σ arg h <;> rintro ⟨⟩ <;> exact id

theorem not_isDangling_of_matchHypotheses {ls : List Label}
    (hls : ∀ l ∈ ls, ∃ h, db.hypothesis? l = some h) {σ : Substitution} {args : List Expr}
    {e : UnifyError} (he : matchHypotheses db σ ls args = .error e) : ¬ e.IsDangling := by
  induction ls generalizing σ args with
  | nil => cases he
  | cons l ls ih =>
    obtain ⟨⟨h, hl⟩, hls⟩ := List.forall_mem_cons.1 hls
    cases args with
    | nil => cases he
    | cons arg args =>
      rw [matchHypotheses, hl] at he
      dsimp only at he
      cases hm : matchHypothesis σ arg h with
      | error e' =>
        rw [hm] at he
        obtain rfl := Except.error.inj he
        exact not_isDangling_of_matchHypothesis hm
      | ok σ' =>
        rw [hm] at he
        exact ih hls he

theorem not_isDangling_of_pairViolation? {σ : Substitution} {p : DisjointPair} {e : UnifyError}
    (he : pairViolation? db σ p = some e) : ¬ e.IsDangling := by
  obtain ⟨u, -, he⟩ := List.exists_of_findSome?_eq_some he
  obtain ⟨v, -, he⟩ := List.exists_of_findSome?_eq_some he
  split_ifs at he
  obtain rfl := Option.some.inj he
  exact id

theorem not_isDangling_of_unify {a : Assertion}
    (ha : ∀ l ∈ a.hypotheses, ∃ h, db.hypothesis? l = some h) {args : List Expr} {e : UnifyError}
    (he : unify db a args = .error e) : ¬ e.IsDangling := by
  unfold unify at he
  split_ifs at he with hlen
  · obtain rfl := Except.error.inj he
    exact id
  · cases hm : matchHypotheses db [] a.hypotheses args with
    | error e' =>
      rw [hm] at he
      obtain rfl := Except.error.inj he
      exact not_isDangling_of_matchHypotheses ha hm
    | ok σ =>
      rw [hm] at he
      cases hd : a.disjoint.findSome? (pairViolation? db σ) with
      | none => simp [hd, bind, Except.bind, pure, Except.pure] at he
      | some e' =>
        obtain rfl : e' = e := by
          simpa [hd, bind, Except.bind, throw, throwThe, MonadExceptOf.throw] using he
        obtain ⟨p, -, hp⟩ := List.exists_of_findSome?_eq_some hd
        exact not_isDangling_of_pairViolation? hp

theorem Database.WellFormed.resolves (hdb : db.WellFormed) : db.Resolves := by
  have hframes : ∀ a ∈ db.assertions, ∀ l ∈ a.hypotheses, ∃ h, db.hypothesis? l = some h := by
    intro a ha l hl
    obtain ⟨hs, hf⟩ := hdb.framed a ha
    obtain ⟨h, -, hh⟩ := hf.hypothesis?_mem hl
    exact ⟨h, hh⟩
  refine ⟨?_, ?_, hframes, ?_, fun a ha args e => not_isDangling_of_unify (hframes a ha)⟩
  · intro scope hscope h hh
    exact hdb.hypothesis?_of_active (List.mem_flatMap.2 ⟨scope, hscope, hh⟩)
  · intro l h hh
    obtain ⟨hmem, rfl⟩ := hdb.activeHypothesis?_eq_some_iff.1 hh
    exact hdb.hypothesis?_of_active hmem
  · intro l h _ hfloating
    cases h with
    | floating l typecode v => exact ⟨typecode, v, rfl⟩
    | essential l e => cases hfloating

/-! ## Steps of proofs -/

namespace Database.Resolves

variable (hdb : db.Resolves) {e : ProofError}

include hdb

theorem exists_mandatory (hthm : thm ∈ db.assertions) {i : Nat} (hi : i < thm.hypotheses.length) :
    ∃ l h, thm.hypotheses[i]? = some l ∧ db.hypothesis? l = some h := by
  have hl := List.getElem?_eq_getElem hi
  obtain ⟨h, hh⟩ := hdb.frames thm hthm _ (List.mem_of_getElem? hl)
  exact ⟨_, h, hl, hh⟩

theorem not_isDangling_of_apply {a : Assertion} (ha : a ∈ db.assertions) {r : Replay}
    (he : r.apply db a = .error e) : ¬ e.IsDangling := by
  revert he
  fun_cases Replay.apply db a r with
  | case1 =>
    rintro ⟨⟩
    exact id
  | case3 _ _ args _ e' he' =>
    rintro ⟨⟩
    exact hdb.unify a ha args e' he'
  | case2 | case4 => rintro ⟨⟩

theorem not_isDangling_of_step {r : Replay} {l : Label} (he : r.step db thm l = .error e) :
    ¬ e.IsDangling := by
  revert he
  fun_cases Replay.step db thm r l with
  | case4 _ _ _ a ha => exact hdb.not_isDangling_of_apply (List.mem_of_find?_eq_some ha)
  | case2 | case5 =>
    rintro ⟨⟩
    exact id
  | case1 | case3 => rintro ⟨⟩

theorem not_isDangling_of_compressed_step (hthm : thm ∈ db.assertions) {labels : List Label}
    {c : CompressedReplay} {s : CompressedStep} (he : c.step db thm labels s = .error e) :
    ¬ e.IsDangling := by
  revert he
  fun_cases CompressedReplay.step db thm labels c s with
  | case5 n i hi hnone =>
    obtain ⟨l, h, hl, hh⟩ := hdb.exists_mandatory hthm hi
    rw [hl, Option.bind_some, hh] at hnone
    cases hnone
  | case6 n i hi i' l hl =>
    intro he
    cases hr : c.replay.step db thm l with
    | error e' =>
      rw [hr] at he
      obtain rfl := Except.error.inj he
      exact hdb.not_isDangling_of_step hr
    | ok r =>
      rw [hr] at he
      cases he
  | case2 | case8 =>
    rintro ⟨⟩
    exact id
  | case1 | case3 | case4 | case7 => rintro ⟨⟩

omit hdb in
/-- The last check of a proof looks nothing up. -/
theorem not_isDangling_of_verdict {r : Replay} {taken : Nat} {failure : Option (Nat × ProofError)}
    (hfailure : ∀ i e, failure = some (i, e) → ¬ e.IsDangling) {i : Nat}
    (he : (r.verdict thm taken failure).failure = some (i, e)) : ¬ e.IsDangling := by
  cases failure with
  | some failure => exact hfailure i e he
  | none =>
    rw [Replay.verdict] at he
    cases hf : r.finish thm with
    | ok u =>
      rw [hf] at he
      cases he
    | error e' =>
      rw [hf] at he
      obtain ⟨-, rfl⟩ := Prod.mk.inj (Option.some.inj he)
      revert hf
      fun_cases Replay.finish thm r with
      | case2 | case4 | case5 =>
        rintro ⟨⟩
        exact id
      | case1 | case3 => rintro ⟨⟩

theorem not_isDangling_of_checkNormal {steps : List Label} {i : Nat}
    (he : (checkNormal db thm steps).failure = some (i, e)) : ¬ e.IsDangling := by
  rw [checkNormal] at he
  dsimp only at he
  refine not_isDangling_of_verdict (fun j e' hf => ?_) he
  obtain ⟨l, -, hl⟩ := exists_error_of_runSteps (Prod.ext rfl hf)
  exact hdb.not_isDangling_of_step hl

theorem not_isDangling_of_checkCompressed (hthm : thm ∈ db.assertions) {labels : List Label}
    {letters : Bytes} {i : Nat}
    (he : (checkCompressed db thm labels letters).failure = some (i, e)) : ¬ e.IsDangling := by
  rw [checkCompressed] at he
  split at he
  · obtain ⟨-, rfl⟩ := Prod.mk.inj (Option.some.inj he)
    exact id
  · refine not_isDangling_of_verdict (fun j e' hf => ?_) he
    obtain ⟨s, -, hs⟩ := exists_error_of_runSteps (Prod.ext rfl hf)
    exact hdb.not_isDangling_of_compressed_step hthm hs

end Database.Resolves

/-! ## Numbers -/

/-- What a number of a compressed proof is looked up by: the indexes are in range, and a number
beyond the marked items is refused. -/
structure CompressedReplay.InRange (db : Database) (thm : Assertion) (labels : List Label)
    (c : CompressedReplay) (n : Nat) : Prop where
  pos : 1 ≤ n
  fits : n < 0x8000000000000000
  mandatory : n ≤ thm.hypotheses.length →
    ∃ l h, thm.hypotheses[n - 1]? = some l ∧ db.hypothesis? l = some h
  label : thm.hypotheses.length < n → n ≤ thm.hypotheses.length + labels.length →
    ∃ l, labels[n - thm.hypotheses.length - 1]? = some l
  saved : thm.hypotheses.length + labels.length < n →
    (∃ item, c.saved[n - (thm.hypotheses.length + labels.length) - 1]? = some item) ∨
      c.step db thm labels (.number n) = .error (.numberTooHigh n)

theorem Database.Resolves.inRange (hdb : db.Resolves) (hthm : thm ∈ db.assertions) {letters : Bytes}
    {steps : List CompressedStep} (hsteps : decodeLetters letters = .ok steps) {n : Nat}
    (hn : .number n ∈ steps) (labels : List Label) (c : CompressedReplay) :
    c.InRange db thm labels n := by
  obtain ⟨hpos, hmax⟩ := (decodeLetters_eq_ok_iff.1 hsteps).1.number_bounds hn
  refine ⟨hpos, Nat.lt_succ_of_le hmax, ?_, ?_, ?_⟩
  · intro hle
    exact hdb.exists_mandatory hthm (by omega)
  · intro hlt hle
    exact ⟨_, List.getElem?_eq_getElem (by omega)⟩
  · intro hlt
    have hmandatory : ¬ n - 1 < thm.hypotheses.length := by omega
    have hlabel : labels[n - 1 - thm.hypotheses.length]? = none := List.getElem?_eq_none (by omega)
    have hindex : n - 1 - thm.hypotheses.length - labels.length =
        n - (thm.hypotheses.length + labels.length) - 1 := by omega
    cases hitem : c.saved[n - (thm.hypotheses.length + labels.length) - 1]? with
    | some item => exact .inl ⟨item, rfl⟩
    | none => simp [CompressedReplay.step, hmandatory, hlabel, hindex, hitem]

/-! ## Statements -/

theorem Database.mem_of_addAssertion {db' : Database} {l : Label} {kind : AssertionKind}
    {e : Expr} {a : Assertion} (h : db.addAssertion l kind e = .ok (db', a)) :
    a ∈ db'.assertions := by
  obtain ⟨-, -, rfl, rfl⟩ := Database.addAssertion_eq_ok_iff.1 h
  exact .head _

namespace Session

variable {ending : Option Failure} {s s' : Session}

/-- Between two statements nothing can go wrong with a reference, neither with those of the database
nor with those that the next statement will use. -/
structure Safe (ending : Option Failure) (s : Session) : Prop where
  resolves : s.db.Resolves
  /-- A scope that is closed has been opened. -/
  openings : ∀ db, s.db.popScope = .ok db → s.openings ≠ []
  /-- An expression that was read is not refused any more. -/
  essential : ∀ label body e, s.db.checkLabel label.text = .ok () →
    s.checkedExpr ending "$e" label body = .ok e → ∃ db, s.db.addEssential label.text e = .ok db
  assertion : ∀ kind label body e, s.db.checkLabel label.text = .ok () →
    s.checkedExpr ending kind.keyword label body = .ok e →
      ∃ db a, s.db.addAssertion label.text kind e = .ok (db, a)
  /-- While a proof is checked, the theorem is declared already. -/
  proof : ∀ l e db thm, s.db.addAssertion l .provable e = .ok (db, thm) → db.Resolves ∧
    ∀ letters steps n, decodeLetters letters = .ok steps → .number n ∈ steps → ∀ labels c,
      CompressedReplay.InRange db thm labels c n

theorem Completes.wellFormed {sts : List Statement} (h : s.Completes ending sts s')
    (hs : s.db.WellFormed) : s'.db.WellFormed := by
  induction h with
  | nil s => exact hs
  | @cons s s₁ s' st sts first others ih =>
    have hdeclares := (execute_change ending s st).declares
    rw [first] at hdeclares
    exact ih (hdeclares.wellFormed hs)

theorem Completes.leveled {sts : List Statement} (h : s.Completes ending sts s') (hs : s.Leveled) :
    s'.Leveled := by
  induction h with
  | nil s => exact hs
  | cons first others ih => exact ih (hs.execute first)

/-- A statement that fails does not do so for the lack of a record. -/
theorem not_isDangling_of_execute (hdb : s.db.WellFormed) {st : Statement} {d : Diagnostic}
    (h : s.execute ending st = (s', some (.diagnostic d))) :
    ending = some (.diagnostic d) ∨ ¬ d.cause.IsDangling := by
  have hcommon : Cause.Common fun c => ¬ c.IsDangling := by
    constructor <;> simp [Cause.IsDangling, ProofError.IsDangling]
  have hreports := reports_execute hcommon s (fun l e db thm hadd v hv i err herr => ?_) ending st
  · rw [h] at hreports
    refine (hreports _ rfl).imp_right ?_
    rintro ⟨d', ⟨⟩, hcause, -, -⟩
    exact hcause
  · have hresolves := (hdb.addAssertion hadd).resolves
    obtain ⟨steps, rfl⟩ | ⟨labels, letters, rfl⟩ := hv
    · exact hresolves.not_isDangling_of_checkNormal herr
    · exact hresolves.not_isDangling_of_checkCompressed (Database.mem_of_addAssertion hadd) herr

theorem safe (hdb : s.db.WellFormed) (hs : s.Leveled) : s.Safe ending where
  resolves := hdb.resolves
  openings := by
    intro db hpop hnil
    obtain ⟨outer, rest, henclosing, -⟩ := Database.popScope_eq_ok_iff.1 hpop
    rw [Leveled, hnil, henclosing] at hs
    cases hs
  essential := by
    intro label body e hl he
    obtain ⟨-, hover⟩ := checkedExpr_eq_ok_iff.1 he
    exact ⟨_, Database.addEssential_eq_ok_iff.2 ⟨hl, hover, rfl⟩⟩
  assertion := by
    intro kind label body e hl he
    obtain ⟨-, hover⟩ := checkedExpr_eq_ok_iff.1 he
    exact ⟨_, _, Database.addAssertion_eq_ok_iff.2 ⟨hl, hover, rfl, rfl⟩⟩
  proof := by
    intro l e db thm hadd
    have hresolves := (hdb.addAssertion hadd).resolves
    exact ⟨hresolves, fun letters steps n hsteps hn =>
      hresolves.inRange (Database.mem_of_addAssertion hadd) hsteps hn⟩

end Session

/-- In every run all references lead somewhere: between any two statements the session is safe, and
no failure of the run is for the lack of a record. -/
theorem run_safe (interrupt : Option Interrupt) (stream : Stream) :
    (∀ done s, done <+: statements stream.tokens → Session.Completes stream.failure {} done s →
      s.Safe stream.failure) ∧
    ∀ d, (run interrupt stream).failure = some (.diagnostic d) →
      stream.failure = some (.diagnostic d) ∨ ¬ d.cause.IsDangling := by
  have hempty : (({} : Session).db).WellFormed := Database.wellFormed_empty
  constructor
  · intro done s _ hdone
    exact Session.safe (hdone.wellFormed hempty) (hdone.leveled rfl)
  · intro d hd
    obtain ⟨s', hrun⟩ : ∃ s', runFrom interrupt stream.failure {} 0 (statements stream.tokens) =
        (s', some (.diagnostic d)) := ⟨_, Prod.ext rfl hd⟩
    obtain ⟨done, rest, s, -, hdone, hhalts, -⟩ :=
      exists_halts_of_runFrom Database.wellFormed_empty hrun
    generalize s'.db = db at hhalts
    generalize hf : Failure.diagnostic d = f at hhalts
    cases hhalts with
    | interrupted => cases hf
    | broken given => exact .inl given
    | unclosed =>
      cases hf
      exact .inr id
    | failed fails leaves =>
      subst hf
      exact Session.not_isDangling_of_execute (hdone.wellFormed hempty) fails

namespace Sample

/-- What stands before a theorem in a block. -/
def beforeTheorem : List Statement :=
  [.constants ⟨"$c", {}⟩ ⟨[⟨"wff", {}⟩, ⟨"|-", {}⟩], some ⟨"$.", {}⟩⟩,
    .vars ⟨"$v", {}⟩ ⟨[⟨"p", {}⟩], some ⟨"$.", {}⟩⟩,
    .labelled ⟨"wp", {}⟩ (.floating ⟨"$f", {}⟩ [⟨"wff", {}⟩, ⟨"p", {}⟩, ⟨"$.", {}⟩]),
    .openBlock ⟨"$\x7b", {}⟩,
    .labelled ⟨"hyp", {}⟩ (.essential ⟨"$e", {}⟩ ⟨[⟨"|-", {}⟩, ⟨"p", {}⟩], some ⟨"$.", {}⟩⟩)]

/-- The same statements as tokens, and a theorem whose proof has a number that is too high. -/
def abbreviated : Stream where
  tokens := beforeTheorem.flatMap Statement.tokens ++
    ["same", "$p", "|-", "p", "$=", "(", ")", "BC", "$.", "$\x7d"].map fun word => ⟨word, {}⟩

def tooHigh : Diagnostic where
  cause := .proof "same" (.numberTooHigh 3)
  stmt := "$p"
  label := "same"

theorem completes_beforeTheorem : ∃ s db thm, Session.Completes none {} beforeTheorem s ∧
    s.db.addAssertion "same" .provable ["|-", "p"] = .ok (db, thm) ∧
      thm.hypotheses = ["wp", "hyp"] :=
  ⟨_, _, _, .cons rfl (.cons rfl (.cons rfl (.cons rfl (.cons rfl (.nil _))))), rfl, rfl⟩

end Sample

theorem abbreviated_safe :
    Sample.beforeTheorem <+: statements Sample.abbreviated.tokens ∧
    (∃ s db thm, Session.Completes none {} Sample.beforeTheorem s ∧ s.Safe none ∧
      s.db.addAssertion "same" .provable ["|-", "p"] = .ok (db, thm) ∧
      thm.hypotheses = ["wp", "hyp"] ∧
      decodeLetters (utf8 "BC") = .ok [.number 2, .number 3] ∧
      CompressedReplay.InRange db thm [] {} 2 ∧ CompressedReplay.InRange db thm [] {} 3) ∧
    (run none Sample.abbreviated).failure = some (.diagnostic Sample.tooHigh) ∧
      ¬ Sample.tooHigh.cause.IsDangling := by
  have hbefore : Sample.beforeTheorem <+: statements Sample.abbreviated.tokens := by decide +kernel
  have hfails : (run none Sample.abbreviated).failure = some (.diagnostic Sample.tooHigh) := by
    decide +kernel
  have hletters : decodeLetters (utf8 "BC") = .ok [.number 2, .number 3] := by rfl
  obtain ⟨hsafe, hcause⟩ := run_safe none Sample.abbreviated
  obtain ⟨s, db, thm, hs, hadd, hthm⟩ := Sample.completes_beforeTheorem
  obtain ⟨-, hrange⟩ := (hsafe _ s hbefore hs).proof _ _ db thm hadd
  exact ⟨hbefore,
    ⟨s, db, thm, hs, hsafe _ s hbefore hs, hadd, hthm, hletters,
      hrange _ _ 2 hletters (by simp) [] {}, hrange _ _ 3 hletters (by simp) [] {}⟩,
    hfails, (hcause _ hfails).resolve_left (by simp [Sample.abbreviated])⟩

end Metamath
