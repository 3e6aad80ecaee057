import Mathlib.Data.List.Dedup
import Metamath.Proofs.Database.Coherence
import Metamath.Proofs.Replay.Unknown
import Metamath.Proofs.Statement.Halting

/-!
# What a run counts

The counts of an accepted run are taken from the tables of the database when it is over. They are
those of the statements (`run_tally`): every declaration adds one record of its sort, and only a
variable can have its record already (`Database.stats_of_foldlM`, `Database.mem_vars_of_foldlM`). No
two records have the same key (`Database.Keyed`), so counting records is counting keys. And
every `$p` statement whose proof has an unknown step adds one warning, at its label
(`Session.warnings_of_execute`).
-/

namespace Metamath

/-! ## Records -/

/-- The keyword of the statement that a declaration is made by. -/
def Declaration.keyword : Declaration → String
  | openScope => "$\x7b"
  | closeScope => "$\x7d"
  | constant _ => "$c"
  | var _ => "$v"
  | floating .. => "$f"
  | essential .. => "$e"
  | disjoint _ => "$d"
  | assertion _ kind _ => kind.keyword

theorem Declaration.map_keyword {d : Symbol → Declaration} {k : String}
    (h : ∀ x, (d x).keyword = k) (xs : List Symbol) :
    (xs.map d).map keyword = List.replicate xs.length k := by
  rw [List.map_map, ← List.map_const']
  exact List.map_congr_left fun x _ => h x

/-- The counts of a list of keywords, and a number of variables. -/
def Stats.ofKeywords (vars : Nat) (keywords : List String) : Stats where
  constants := keywords.count "$c"
  vars := vars
  floating := keywords.count "$f"
  essential := keywords.count "$e"
  axioms := keywords.count "$a"
  theorems := keywords.count "$p"

namespace Database

variable {db db' : Database} {ds : List Declaration}

/-- A declaration adds one record of its sort. Variables are not counted by declarations. -/
theorem stats_of_declare {d : Declaration} {keywords : List String}
    (hstats : db.stats = .ofKeywords db.vars.length keywords) (h : db.declare d = .ok db') :
    db'.stats = .ofKeywords db'.vars.length (keywords ++ [d.keyword]) := by
  have hf : ∀ l typecode v, (Hypothesis.floating l typecode v).isFloating = true := fun _ _ _ => rfl
  have he : ∀ l e, (Hypothesis.essential l e).isFloating = false := fun _ _ => rfl
  simp only [stats, Stats.ofKeywords, Stats.mk.injEq] at hstats
  obtain rfl := effect_of_declare h
  cases d with
  | assertion l kind e =>
    cases kind <;> simp [stats, effect, Declaration.keyword, AssertionKind.keyword, frame,
      Stats.ofKeywords, hstats]
  | _ =>
    simp [stats, effect, Declaration.keyword, addHypothesis, enterFloating, pushScope, hf, he,
      Stats.ofKeywords, hstats]

theorem stats_of_foldlM {keywords : List String}
    (hstats : db.stats = .ofKeywords db.vars.length keywords) (h : ds.foldlM declare db = .ok db') :
    db'.stats = .ofKeywords db'.vars.length (keywords ++ ds.map Declaration.keyword) := by
  induction ds generalizing db keywords with
  | nil =>
    obtain rfl := Except.ok.inj h
    simpa using hstats
  | cons d ds ih =>
    obtain ⟨db₁, hd, h⟩ := foldlM_cons_eq_ok_iff.1 h
    simpa using ih (stats_of_declare hstats hd) h

/-- The variables of a database are those that are declared. -/
theorem mem_vars_of_foldlM (h : ds.foldlM declare db = .ok db') {x : Symbol} :
    x ∈ db'.vars ↔ x ∈ db.vars ∨ .var x ∈ ds := by
  induction ds generalizing db with
  | nil =>
    obtain rfl := Except.ok.inj h
    simp
  | cons d ds ih =>
    obtain ⟨db₁, hd, h⟩ := foldlM_cons_eq_ok_iff.1 h
    have hfirst : x ∈ db₁.vars ↔ x ∈ db.vars ∨ .var x = d := by
      obtain rfl := effect_of_declare hd
      cases d with
      | var y => simp [effect, or_comm]
      | _ => simp [effect, addHypothesis, enterFloating, pushScope]
    rw [ih h, hfirst, List.mem_cons, or_assoc]

/-- No two records of a table have the same key. -/
structure Keyed (db : Database) : Prop where
  constants : db.constants.Nodup
  vars : db.vars.Nodup
  hypotheses : (db.hypotheses.map Hypothesis.label).Nodup
  assertions : (db.assertions.map Assertion.label).Nodup

theorem Layered.keyed (h : db.Layered) : db.Keyed where
  constants := h.nodup_names.of_append_left
  vars := h.nodup_names.of_append_right.of_append_left
  hypotheses := h.nodup_names.of_append_right.of_append_right.of_append_left
  assertions := h.nodup_names.of_append_right.of_append_right.of_append_right

theorem keyed_of_foldlM (h : ds.foldlM declare {} = .ok db) : db.Keyed := by
  have hdb := foldlM_declare_induction (P := fun db => db.WellFormed ∧ db.Layered)
    (fun _ _ _ _ hd h => ⟨h.1.declare hd, h.2.declare h.1 hd⟩) ⟨wellFormed_empty, layered_empty⟩ h
  exact hdb.2.keyed

end Database

/-! ## Statements and what they declare -/

/-- The keyword of a body. It is empty if there is none. -/
def Body.keyword : Body → String
  | missing => ""
  | unknown keyword | floating keyword _ | essential keyword _ | axiomatic keyword _
  | provable keyword _ _ => keyword.text

theorem Body.keyword_of_clause? {body : Body} {c : Clause}
    (hwords : body.tokens.map Token.text = c.words) (h : body.clause? = some c) (l : Label) :
    (c.declaration l).keyword = body.keyword ∧ body.keyword ∉ ["$c", "$v"] := by
  cases body with
  | missing | unknown => cases h
  | floating keyword fields =>
    obtain ⟨typecode, v, -, rfl⟩ := clause?_floating_iff.1 h
    have hk : keyword.text = "$f" := (List.cons.inj hwords).1
    exact ⟨hk.symm, by simp [Body.keyword, hk]⟩
  | essential keyword expr =>
    obtain ⟨e, -, rfl⟩ := Option.map_eq_some_iff.1 h
    have hk : keyword.text = "$e" := (List.cons.inj hwords).1
    exact ⟨hk.symm, by simp [Body.keyword, hk]⟩
  | axiomatic keyword expr =>
    obtain ⟨e, -, rfl⟩ := Option.map_eq_some_iff.1 h
    have hk : keyword.text = "$a" := (List.cons.inj hwords).1
    exact ⟨hk.symm, by simp [Body.keyword, hk]⟩
  | provable keyword expr proof =>
    obtain ⟨e, p, -, -, rfl⟩ := clause?_provable_iff.1 h
    have hk : keyword.text = "$p" := (List.cons.inj hwords).1
    exact ⟨hk.symm, by simp [Body.keyword, hk]⟩

namespace Statement

/-- The keyword of a statement. It is empty if there is none. -/
def keyword : Statement → String
  | constants keyword _ | vars keyword _ | disjoint keyword _ | openBlock keyword
  | closeBlock keyword => keyword.text
  | labelled _ body => body.keyword

/-- The symbols that a statement with a keyword lists. -/
def listed (keyword : String) : Statement → List Symbol
  | constants k symbols | vars k symbols =>
    if k.text = keyword then symbols.items.map Token.text else []
  | _ => []

/-- The label of a theorem whose proof has an unknown step. -/
def guess? : Statement → Option Token
  | labelled label (.provable _ _ proof) =>
    if proof.proof?.any WrittenProof.hasUnknown then some label else none
  | _ => none

theorem exists_of_guess? {st : Statement} {label : Token} (h : st.guess? = some label) :
    ∃ keyword expr proof, st = .labelled label (.provable keyword expr proof) := by
  unfold guess? at h
  split at h
  · split_ifs at h
    cases h
    exact ⟨_, _, _, rfl⟩
  · cases h

section Declarations

variable {st : Statement} {sen : Sentence} (hwords : st.tokens.map Token.text = sen.words)
  (h : st.sentence? = some sen)

include hwords h

/-- What a complete statement declares: the symbols that it lists, or one thing of another sort. -/
theorem declarations_cases :
    (st.keyword = "$c" ∧ st.listed "$v" = [] ∧ sen.declarations = (st.listed "$c").map .constant) ∨
    (st.keyword = "$v" ∧ st.listed "$c" = [] ∧ sen.declarations = (st.listed "$v").map .var) ∨
    (st.listed "$c" = [] ∧ st.listed "$v" = [] ∧
      ∃ d, sen.declarations = [d] ∧ d.keyword = st.keyword ∧ st.keyword ∉ ["$c", "$v"]) := by
  cases st with
  | constants keyword symbols =>
    obtain ⟨xs, hxs, rfl⟩ := Option.map_eq_some_iff.1 h
    obtain ⟨stop, -, rfl⟩ := Option.map_eq_some_iff.1 hxs
    have hk : keyword.text = "$c" := (List.cons.inj hwords).1
    exact .inl ⟨hk, by simp [listed, hk], by simp [listed, hk]⟩
  | vars keyword symbols =>
    obtain ⟨xs, hxs, rfl⟩ := Option.map_eq_some_iff.1 h
    obtain ⟨stop, -, rfl⟩ := Option.map_eq_some_iff.1 hxs
    have hk : keyword.text = "$v" := (List.cons.inj hwords).1
    exact .inr (.inl ⟨hk, by simp [listed, hk], by simp [listed, hk]⟩)
  | disjoint keyword symbols =>
    obtain ⟨xs, -, rfl⟩ := Option.map_eq_some_iff.1 h
    have hk : keyword.text = "$d" := (List.cons.inj hwords).1
    exact .inr (.inr ⟨rfl, rfl, _, rfl, hk.symm, by simp [Statement.keyword, hk]⟩)
  | openBlock keyword =>
    cases h
    have hk : keyword.text = "$\x7b" := (List.cons.inj hwords).1
    exact .inr (.inr ⟨rfl, rfl, _, rfl, hk.symm, by simp [Statement.keyword, hk]⟩)
  | closeBlock keyword =>
    cases h
    have hk : keyword.text = "$\x7d" := (List.cons.inj hwords).1
    exact .inr (.inr ⟨rfl, rfl, _, rfl, hk.symm, by simp [Statement.keyword, hk]⟩)
  | labelled label body =>
    obtain ⟨c, hc, rfl⟩ := Option.map_eq_some_iff.1 h
    obtain ⟨hkeyword, hne⟩ := Body.keyword_of_clause? (List.cons.inj hwords).2 hc label.text
    exact .inr (.inr ⟨rfl, rfl, _, rfl, hkeyword, hne⟩)

theorem count_declarations {k : String} (hne : k ∉ ["$c", "$v"]) :
    (sen.declarations.map Declaration.keyword).count k = [st.keyword].count k := by
  obtain ⟨hc, hv⟩ : k ≠ "$c" ∧ k ≠ "$v" := by simpa using hne
  obtain ⟨hst, -, hd⟩ | ⟨hst, -, hd⟩ | ⟨-, -, d, hd, hst, -⟩ := declarations_cases hwords h <;>
    rw [hd]
  · rw [Declaration.map_keyword (d := .constant) (k := "$c") fun _ => rfl, hst]
    simp [List.count_replicate, hc.symm]
  · rw [Declaration.map_keyword (d := .var) (k := "$v") fun _ => rfl, hst]
    simp [List.count_replicate, hv.symm]
  · rw [List.map_singleton, hst]

theorem count_constants :
    (sen.declarations.map Declaration.keyword).count "$c" = (st.listed "$c").length := by
  obtain ⟨-, -, hd⟩ | ⟨-, hc, hd⟩ | ⟨hc, -, d, hd, hst, hne⟩ := declarations_cases hwords h <;>
    rw [hd]
  · rw [Declaration.map_keyword (d := .constant) (k := "$c") fun _ => rfl, List.count_replicate_self]
  · rw [Declaration.map_keyword (d := .var) (k := "$v") fun _ => rfl, hc]
    simp [List.count_replicate]
  · rw [List.map_singleton, hst, hc]
    exact List.count_eq_zero.2 fun hmem => hne (List.mem_singleton.1 hmem ▸ by simp)

theorem var_mem_declarations_iff {x : Symbol} :
    .var x ∈ sen.declarations ↔ x ∈ st.listed "$v" := by
  obtain ⟨-, hv, hd⟩ | ⟨-, -, hd⟩ | ⟨-, hv, d, hd, hst, hne⟩ := declarations_cases hwords h <;>
    rw [hd]
  · simp [hv]
  · simp
  · have hd' : .var x ≠ d := by
      rintro rfl
      exact hne (hst ▸ by simp [Declaration.keyword])
    simp [hv, hd']

end Declarations

/-- Complete statements list what they declare, and count as many declarations. -/
theorem declarations_of_sentences {sts : List Statement} {sens : List Sentence}
    (hwords : ∀ st ∈ sts, ∀ sen, st.sentence? = some sen → st.tokens.map Token.text = sen.words)
    (h : sts.map sentence? = sens.map some) :
    (∀ k ∉ ["$c", "$v"], ((sens.flatMap Sentence.declarations).map Declaration.keyword).count k =
      (sts.map keyword).count k) ∧
    ((sens.flatMap Sentence.declarations).map Declaration.keyword).count "$c" =
      (sts.flatMap (listed "$c")).length ∧
    ∀ x, .var x ∈ sens.flatMap Sentence.declarations ↔ x ∈ sts.flatMap (listed "$v") := by
  induction sts generalizing sens with
  | nil =>
    obtain rfl := List.map_eq_nil_iff.1 h.symm
    simp
  | cons st sts ih =>
    cases sens with
    | nil => cases h
    | cons sen sens =>
      obtain ⟨hst, h⟩ := List.cons.inj h
      obtain ⟨hfirst, hwords⟩ := List.forall_mem_cons.1 hwords
      have hfirst := hfirst sen hst
      obtain ⟨hcount, hconstants, hvars⟩ := ih hwords h
      simp only [List.flatMap_cons, List.map_append, List.count_append, List.length_append,
        List.mem_append]
      refine ⟨fun k hne => ?_, ?_, fun x => ?_⟩
      · rw [hcount k hne, count_declarations hfirst hst hne, List.map_cons]
        exact List.count_append.symm
      · rw [hconstants, count_constants hfirst hst]
      · rw [hvars, var_mem_declarations_iff hfirst hst]

/-- What a proof that is accepted adds to the incomplete ones. -/
theorem incomplete?_eq_guess? {st : Statement} {sen : Sentence} {db db' : Database}
    (hdb : db'.WellNamed) (hsen : st.sentence? = some sen) {ls : List Label}
    (h : sen.incomplete? db db' = some ls) : ls = st.guess?.toList.map Token.text := by
  cases st with
  | constants keyword symbols | vars keyword symbols | disjoint keyword symbols =>
    obtain ⟨xs, -, rfl⟩ := Option.map_eq_some_iff.1 hsen
    cases h
    rfl
  | openBlock keyword | closeBlock keyword =>
    cases hsen
    cases h
    rfl
  | labelled label body =>
    obtain ⟨c, hc, rfl⟩ := Option.map_eq_some_iff.1 hsen
    cases body with
    | missing | unknown keyword => cases hc
    | floating keyword fields =>
      obtain ⟨typecode, v, -, rfl⟩ := Body.clause?_floating_iff.1 hc
      cases h
      rfl
    | essential keyword expr | axiomatic keyword expr =>
      obtain ⟨e, -, rfl⟩ := Option.map_eq_some_iff.1 hc
      cases h
      rfl
    | provable keyword expr proof =>
      obtain ⟨e, p, -, hp, rfl⟩ := Body.clause?_provable_iff.1 hc
      obtain ⟨b, hb, rfl⟩ := Option.map_eq_some_iff.1 h
      obtain rfl := WrittenProof.hasUnknown_of_check? hdb hb
      cases hu : p.hasUnknown <;> simp [guess?, hp, hu]

end Statement

/-! ## Runs -/

namespace Session

variable {ending : Option Failure} {s s' : Session}

theorem warnings_execute_provable (ending : Option Failure) (s : Session)
    (label keyword : Token) (expr : Segment) (proof : ProofText) :
    (s.execute ending (.labelled label (.provable keyword expr proof))).1.warnings = s.warnings ∨
      (s.execute ending (.labelled label (.provable keyword expr proof))).1.warnings =
        s.warnings ++ [label.incompleteProof] := by
  rw [execute]
  split_ifs
  · exact .inl rfl
  · split
    · exact .inl rfl
    · rw [executeBody]
      fun_cases executeProvable ending s label expr proof with
      | case3 e he db thm hadd => exact warnings_executeProof ending { s with db } label thm proof
      | _ => exact .inl rfl

/-- A statement that is carried out adds the warning for its own proof, if that has an unknown
step. -/
theorem warnings_of_execute (hs : s.db.WellNamed) {st : Statement}
    (h : s.execute ending st = (s', none)) :
    s'.db.WellNamed ∧ s'.warnings = s.warnings ++ st.guess?.toList.map Token.incompleteProof := by
  obtain ⟨sen, hsen, hwell, hperform⟩ :=
    (ledger?_execute_iff ending).1 (by rw [h, Step.ledger?_accepted])
  have hs' : s'.db.WellNamed := Sentence.wellNamed_of_perform hs hwell hperform
  obtain ⟨db, ls, -, hls, hledger⟩ := Sentence.perform_eq_some_iff.1 hperform
  obtain ⟨rfl, hlabels⟩ := Ledger.mk.inj hledger
  obtain rfl := Statement.incomplete?_eq_guess? hs' hsen hls
  refine ⟨hs', ?_⟩
  -- so many warnings are added, and what may be added is known
  have hlength : s'.warnings.length = s.warnings.length + st.guess?.toList.length := by
    simpa [ledger] using (congrArg List.length hlabels).symm
  cases hguess : st.guess? with
  | none =>
    rw [hguess] at hlength
    rcases s.warnings_execute ending st with hw | ⟨label, -, hw⟩ <;> rw [h] at hw
    · simpa using hw
    · rw [hw] at hlength
      simp at hlength
  | some label =>
    obtain ⟨keyword, expr, proof, rfl⟩ := Statement.exists_of_guess? hguess
    rw [hguess] at hlength
    rcases s.warnings_execute_provable ending label keyword expr proof with hw | hw <;> rw [h] at hw
    · rw [hw] at hlength
      simp at hlength
    · exact hw

theorem Completes.warnings {sts : List Statement} (h : s.Completes ending sts s')
    (hs : s.db.WellNamed) :
    s'.warnings = s.warnings ++ (sts.filterMap Statement.guess?).map Token.incompleteProof := by
  induction h with
  | nil s => simp
  | @cons _ _ _ st _ first others ih =>
    obtain ⟨hs₁, hfirst⟩ := warnings_of_execute hs first
    rw [ih hs₁, hfirst, List.append_assoc, ← List.map_append, List.filterMap_cons]
    cases st.guess? <;> rfl

/-- A run that is accepted has carried out all statements. -/
theorem completes_of_runFrom {interrupt : Option Interrupt} {sts : List Statement} {taken : Nat}
    (h : runFrom interrupt ending s taken sts = (s', none)) : s.Completes ending sts s' := by
  fun_induction runFrom interrupt ending s taken sts with
  | case1 | case3 | case4 => cases h
  | case2 s taken hi =>
    revert h
    fun_cases close ending s <;> rintro ⟨⟩
    exact .nil _
  | case5 s taken st rest hi s₁ he ih => exact .cons he (ih h)

end Session

theorem Sentence.foldlM_declare_of_performAll {sens : List Sentence} {r r' : Ledger}
    (h : performAll r sens = some r') :
    (sens.flatMap declarations).foldlM Database.declare r.db = .ok r'.db := by
  induction sens generalizing r with
  | nil =>
    cases h
    rfl
  | cons sen sens ih =>
    obtain ⟨r₁, h₁, h⟩ := performAll_cons_eq_some_iff.1 h
    obtain ⟨db, ls, hdb, -, rfl⟩ := perform_eq_some_iff.1 h₁
    exact foldlM_append_eq_ok_iff.2 ⟨db, hdb, ih h⟩

/-- The counts and the warnings of an accepted run are exact. Constants are counted as they are
listed, variables as different symbols, and the other statements by their keywords. No record is
counted twice, for no two have the same key. There is one warning for each theorem whose proof has an
unknown step, in the order of the statements. -/
theorem run_tally (interrupt : Option Interrupt) (stream : Stream)
    (h : (run interrupt stream).failure = none) :
    (run interrupt stream).warnings =
      ((statements stream.tokens).filterMap Statement.guess?).map Token.incompleteProof ∧
    (run interrupt stream).stats = {
      constants := ((statements stream.tokens).flatMap (Statement.listed "$c")).length
      vars := ((statements stream.tokens).flatMap (Statement.listed "$v")).dedup.length
      floating := ((statements stream.tokens).map Statement.keyword).count "$f"
      essential := ((statements stream.tokens).map Statement.keyword).count "$e"
      axioms := ((statements stream.tokens).map Statement.keyword).count "$a"
      theorems := ((statements stream.tokens).map Statement.keyword).count "$p"
      incomplete := (run interrupt stream).warnings.length } ∧
    (run interrupt stream).db.Keyed := by
  have hdone := Session.completes_of_runFrom (Prod.ext rfl h :
    runFrom interrupt stream.failure {} 0 (statements stream.tokens) = (_, none))
  obtain ⟨sens, hsens, -, hperform⟩ := hdone.performs
  have hdeclare := Sentence.foldlM_declare_of_performAll hperform
  have hstats : (run interrupt stream).db.stats = .ofKeywords (run interrupt stream).db.vars.length
      ([] ++ (sens.flatMap Sentence.declarations).map Declaration.keyword) :=
    Database.stats_of_foldlM rfl hdeclare
  obtain ⟨hcount, hconstants, hvars⟩ := Statement.declarations_of_sentences
    (fun _ hst _ => Statement.map_text_tokens hst) hsens
  have hkeyed := Database.keyed_of_foldlM hdeclare
  refine ⟨hdone.warnings Database.wellNamed_empty, ?_, hkeyed⟩
  have hlength : (run interrupt stream).db.vars.length =
      ((statements stream.tokens).flatMap (Statement.listed "$v")).dedup.length := by
    refine ((List.perm_ext_iff_of_nodup hkeyed.vars (List.nodup_dedup _)).2 fun x => ?_).length_eq
    rw [Database.mem_vars_of_foldlM hdeclare, hvars, List.mem_dedup]
    simp [Session.ledger]
  rw [Outcome.stats, hstats, List.nil_append, Stats.ofKeywords, hconstants, hlength,
    hcount "$f" (by decide), hcount "$e" (by decide), hcount "$a" (by decide),
    hcount "$p" (by decide)]

namespace Sample

/-- Two blocks that declare the same variable, with an unknown step in a proof of either format. -/
def guesses : Stream where
  tokens := (["$c", "wff", "|-", "$.", "$\x7b", "$v", "p", "$.", "wp", "$f", "wff", "p", "$.",
    "guess", "$p", "wff", "p", "$=", "?", "$.", "$\x7d", "$\x7b", "$v", "q", "p", "$.",
    "wp2", "$f", "wff", "p", "$.", "hyp", "$e", "|-", "p", "$.", "ax", "$a", "wff", "p", "$.",
    "sure", "$p", "wff", "p", "$=", "(", ")", "A", "$.",
    "also", "$p", "wff", "p", "$=", "(", "ax", ")", "A", "?", "$.", "$\x7d"].zipIdx).map
      fun w => ⟨w.1, ⟨"", w.2, 1, w.2 + 1⟩⟩

end Sample

theorem guesses_tally :
    (run none Sample.guesses).failure = none ∧
      (run none Sample.guesses).warnings =
        [⟨"guess", ⟨"", 13, 1, 14⟩⟩, ⟨"also", ⟨"", 50, 1, 51⟩⟩].map Token.incompleteProof ∧
      (run none Sample.guesses).stats = ⟨2, 2, 2, 1, 1, 3, 2⟩ := by
  have h : (run none Sample.guesses).failure = none := by decide +kernel
  obtain ⟨hwarnings, hstats, -⟩ := run_tally none Sample.guesses h
  have hguesses : (statements Sample.guesses.tokens).filterMap Statement.guess? =
      [⟨"guess", ⟨"", 13, 1, 14⟩⟩, ⟨"also", ⟨"", 50, 1, 51⟩⟩] := by decide +kernel
  rw [hguesses] at hwarnings
  refine ⟨h, hwarnings, hstats.trans ?_⟩
  rw [hwarnings]
  decide +kernel

end Metamath
