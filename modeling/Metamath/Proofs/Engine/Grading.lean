import Metamath.Proofs.Engine.Reading

/-!
# Grading

An engine is made from rules and then adjusted: rules and paths are left out. Whatever the settings,
they only bear on the warnings of a check, which are about incomplete proofs. A diagnostic that ends
the check is always reported, as an error, and makes the report a failed one (`check_grading`).
-/

namespace Metamath

/-! ## Settings -/

/-- The grade that rules give to incomplete proofs. -/
def grade (rules : List (String × Severity)) : Severity :=
  (rules.lookup Kind.incompleteProof.name).getD .warning

/-- A setting that is made after the rules. -/
inductive Adjustment where
  | ignoreRule (rule : String)
  | ignorePath (path : String)
deriving DecidableEq, Repr

/-- The adjustment that leaves out incomplete proofs. -/
def Adjustment.silence : Adjustment :=
  .ignoreRule Kind.incompleteProof.name

/-- A path that is, or lies below, another one. -/
def Path.IsWithin (path dir : String) : Prop :=
  clean path = clean dir ∨ (clean dir ++ "/").toList <+: (clean path).toList

namespace Engine

/-- Makes a setting. -/
def adjust (e : Engine) : Adjustment → Engine
  | .ignoreRule rule => e.ignoreRule rule
  | .ignorePath path => e.ignorePath path

/-- Makes settings in order. -/
def adjustAll (e : Engine) (as : List Adjustment) : Engine :=
  as.foldl adjust e

variable {e : Engine} {rules : List (String × Severity)} {as : List Adjustment}

theorem incomplete_adjustAll (e : Engine) (as : List Adjustment) :
    (e.adjustAll as).incomplete = e.incomplete := by
  induction as generalizing e with
  | nil => rfl
  | cons a as ih => cases a <;> exact ih _

theorem mem_ignoredRules_adjustAll_iff {rule : String} :
    rule ∈ (e.adjustAll as).ignoredRules ↔ rule ∈ e.ignoredRules ∨ .ignoreRule rule ∈ as := by
  induction as generalizing e with
  | nil => simp [adjustAll]
  | cons a as ih =>
    have hstep : e.adjustAll (a :: as) = (e.adjust a).adjustAll as := rfl
    rw [hstep, ih]
    cases a with
    | ignoreRule r =>
      simp only [adjust, ignoreRule, List.mem_cons, Adjustment.ignoreRule.injEq]
      tauto
    | ignorePath p => simp [adjust, ignorePath]

theorem mem_ignoredPaths_adjustAll_iff {path : String} :
    path ∈ (e.adjustAll as).ignoredPaths ↔
      path ∈ e.ignoredPaths ∨ ∃ p, .ignorePath p ∈ as ∧ path = Path.clean p := by
  induction as generalizing e with
  | nil => simp [adjustAll]
  | cons a as ih =>
    have hstep : e.adjustAll (a :: as) = (e.adjust a).adjustAll as := rfl
    rw [hstep, ih]
    cases a with
    | ignoreRule r => simp [adjust, ignoreRule]
    | ignorePath p => simp [adjust, ignorePath, or_assoc]

/-- What rules that are accepted set. -/
theorem eq_of_ofRules {root : String} (h : ofRules root rules = .ok e) :
    e = { root, incomplete := grade rules,
          ignoredRules := if grade rules = .off then [Kind.incompleteProof.name] else [] } := by
  unfold ofRules at h
  cases hl : rules.lookup Kind.incompleteProof.name with
  | none =>
    rw [hl] at h
    cases h
    simp [grade, hl]
  | some severity =>
    rw [hl] at h
    cases severity with
    | unknown code => cases h
    | _ => cases h; simp [grade, hl]

/-- Incomplete proofs are left out if and only if they are turned off or silenced later. -/
theorem mem_ignoredRules_iff {root : String} (h : ofRules root rules = .ok e) :
    Kind.incompleteProof.name ∈ (e.adjustAll as).ignoredRules ↔
      grade rules = .off ∨ .silence ∈ as := by
  rw [mem_ignoredRules_adjustAll_iff, eq_of_ofRules h]
  split_ifs with hg <;> simp [hg, Adjustment.silence]

/-- The paths that are left out are those of the adjustments, with all that is below them. -/
theorem isIgnored_adjustAll_iff {root path : String} (h : ofRules root rules = .ok e) :
    (e.adjustAll as).isIgnored path ↔ ∃ p, .ignorePath p ∈ as ∧ Path.IsWithin path p := by
  have hpaths : e.ignoredPaths = [] := by rw [eq_of_ofRules h]
  simp only [isIgnored, List.any_eq_true, mem_ignoredPaths_adjustAll_iff, hpaths,
    List.not_mem_nil, false_or, Bool.or_eq_true, beq_iff_eq, List.isPrefixOf_iff_prefix,
    Path.IsWithin]
  constructor
  · rintro ⟨_, ⟨p, hp, rfl⟩, hwithin⟩
    exact ⟨p, hp, hwithin⟩
  · rintro ⟨p, hp, hwithin⟩
    exact ⟨_, ⟨p, hp, rfl⟩, hwithin⟩

/-! ## Reports -/

theorem issue?_of_fatal (e : Engine) (file : String) {d : Diagnostic} (h : d.kind.isFatal) :
    e.issue? file d = some (issue file d .error) := by
  simp [issue?, severity?, h]

/-- Warnings are graded or left out all alike. -/
theorem filterMap_issue?_warnings (e : Engine) (file : String) {ws : List Diagnostic}
    (h : ∀ w ∈ ws, w.kind = .incompleteProof) :
    ws.filterMap (e.issue? file) =
      if Kind.incompleteProof.name ∈ e.ignoredRules then []
      else ws.map (issue file · e.incomplete) := by
  have hissue : ∀ w ∈ ws, e.issue? file w =
      if Kind.incompleteProof.name ∈ e.ignoredRules then none
      else some (issue file w e.incomplete) := by
    intro w hw
    by_cases hr : Kind.incompleteProof.name ∈ e.ignoredRules <;>
      simp [issue?, severity?, h w hw, Kind.isFatal, hr]
  rw [List.filterMap_congr hissue]
  split_ifs
  · exact List.filterMap_none ws
  · exact congrFun List.filterMap_eq_map ws

/-- The report on a run that warns of incomplete proofs and may fail with a diagnostic. -/
theorem report_eq_ok (e : Engine) (file : String) {o : Outcome}
    (hw : ∀ w ∈ o.warnings, w.kind = .incompleteProof) {d? : Option Diagnostic}
    (hf : o.failure = d?.map .diagnostic) (hfatal : ∀ d, d? = some d → d.kind.isFatal) :
    e.report file o = .ok {
      filename := file
      stats := o.stats
      issues :=
        (if Kind.incompleteProof.name ∈ e.ignoredRules then []
          else o.warnings.map (issue file · e.incomplete)) ++
        d?.toList.map (issue file · .error) } := by
  rw [report_of_diagnostic hf, filterMap_issue?_warnings e file hw]
  cases d? with
  | none => rfl
  | some d => simp [issue?_of_fatal e file (hfatal d rfl)]

/-- A report with graded warnings and an error fails for the error or for warnings that are errors. -/
theorem failed_iff_of_issues {r : FileReport} {file : String} {silent : Prop} [Decidable silent]
    {ws : List Diagnostic} {severity : Severity} {d? : Option Diagnostic}
    (h : r.issues = (if silent then [] else ws.map (issue file · severity)) ++
      d?.toList.map (issue file · .error)) :
    r.failed ↔ d?.isSome ∨ ws ≠ [] ∧ severity = .error ∧ ¬ silent := by
  have hwarnings : (ws.map (issue file · severity)).any (·.severity == .error) ↔
      ws ≠ [] ∧ severity = .error := by
    cases ws <;> simp [issue]
  rw [FileReport.failed, h, List.any_append, Bool.or_eq_true, or_comm]
  refine or_congr ?_ ?_
  · cases d? <;> simp [issue]
  · split_ifs with hs
    · simp [hs]
    · rw [hwarnings]
      simp [hs]

end Engine

/-- No setting hides or downgrades a diagnostic that ends a check. The report on a file that is not
left out has the warnings, all of the grade that the rules give them unless they are turned off or
silenced, and then an error for the diagnostic, if there is one. It fails for that error or for
warnings that are graded as errors, and a report on many files fails if one of its reports does. -/
theorem check_grading {root path : String} {rules : List (String × Severity)} {e : Engine}
    (he : Engine.ofRules root rules = .ok e) {as : List Adjustment}
    (hpath : ∀ p, .ignorePath p ∈ as → ¬ Path.IsWithin path p) {t : FileTree}
    {interrupt : Option Interruption} {o : Outcome}
    (ho : t.verifyFile path (startInterrupt interrupt) = .ok o) {d? : Option Diagnostic}
    (hend : o.failure = d?.map .diagnostic) :
    (∀ w ∈ o.warnings, w.kind = .incompleteProof) ∧ (∀ d, d? = some d → d.kind.isFatal) ∧
      (∃ r, (e.adjustAll as).check t interrupt path = .ok r ∧ r.filename = path ∧
        r.stats = o.stats ∧
        r.issues =
          (if grade rules = .off ∨ .silence ∈ as then []
            else o.warnings.map (Engine.issue path · (grade rules))) ++
          d?.toList.map (Engine.issue path · .error) ∧
        (r.failed ↔ d?.isSome ∨ o.warnings ≠ [] ∧ grade rules = .error ∧ .silence ∉ as)) ∧
      ∀ report : Report, report.failed ↔ ∃ r ∈ report.files, r.failed := by
  obtain ⟨hw, hf⟩ := FileTree.sourced_verifyFile ho
  have hkind : ∀ w ∈ o.warnings, w.kind = .incompleteProof := fun w h => (hw w h).1
  have hfatal : ∀ d, d? = some d → d.kind.isFatal := by
    rintro d rfl
    rcases hf _ hend with hd | ⟨i, -, ⟨⟩⟩
    exact hd.1
  have hnot : (e.adjustAll as).isIgnored path = false := by
    rw [Bool.eq_false_iff, Ne, Engine.isIgnored_adjustAll_iff he]
    rintro ⟨p, hp, hwithin⟩
    exact hpath p hp hwithin
  have hgrade : (e.adjustAll as).incomplete = grade rules := by
    rw [Engine.incomplete_adjustAll, Engine.eq_of_ofRules he]
  have hreport := (e.adjustAll as).report_eq_ok path hkind hend hfatal
  simp only [Engine.mem_ignoredRules_iff he, hgrade] at hreport
  refine ⟨hkind, hfatal, ⟨_, (Engine.check_eq_report hnot ho).trans hreport, rfl, rfl, rfl, ?_⟩,
    fun report => by simp [Report.failed]⟩
  rw [Engine.failed_iff_of_issues rfl]
  refine or_congr_right (and_congr_right fun _ => and_congr_right fun herror => ?_)
  simp [herror]

namespace Sample

/-- A theorem without a proof, and then a closing brace without an opening one. -/
def unproved : Source where
  bytes := utf8 "$c w $. x $p w $= ? $. $\x7d"

def unprovedTree : FileTree where
  files := [(["a.mm"], unproved.bytes)]

/-- The rule that the brace breaks is turned off, and incomplete proofs are errors. -/
def lenient : List (String × Severity) :=
  [(Kind.scopeViolation.name, .off), (Kind.incompleteProof.name, .error)]

def hushed : List Adjustment :=
  [.ignoreRule Kind.scopeViolation.name, .ignorePath "a"]

def strayBrace : Diagnostic where
  cause := .declaration .noOpenBlock
  stmt := "$\x7d"
  pos := ⟨"a.mm", 23, 1, 24⟩

end Sample

theorem unproved_grading :
    ∃ e o r, Engine.ofRules "." Sample.lenient = .ok e ∧
      (∀ p, .ignorePath p ∈ Sample.hushed → ¬ Path.IsWithin "a.mm" p) ∧
      Sample.unprovedTree.verifyFile "a.mm" = .ok o ∧
      o.failure = some (.diagnostic Sample.strayBrace) ∧
      (e.adjustAll Sample.hushed).check Sample.unprovedTree none "a.mm" = .ok r ∧
      r.issues = o.warnings.map (Engine.issue "a.mm" · .error) ++
        [Engine.issue "a.mm" Sample.strayBrace .error] ∧ r.failed := by
  have hopen : Sample.unprovedTree.openFile "a.mm" = .ok Sample.unproved := by rfl
  have ho : Sample.unprovedTree.verifyFile "a.mm" (startInterrupt none) =
      .ok (run none (Sample.unproved.lex "a.mm")) := by
    rw [FileTree.verifyFile_of_openFile hopen, expand_of_no_command _ (by decide +kernel)]
    rfl
  have hpath : ∀ p, .ignorePath p ∈ Sample.hushed → ¬ Path.IsWithin "a.mm" p := by
    intro p hp
    have hp' : p = "a" := by simpa [Sample.hushed] using hp
    subst hp'
    unfold Path.IsWithin
    decide
  have hend : (run none (Sample.unproved.lex "a.mm")).failure =
      (some Sample.strayBrace).map .diagnostic := by decide +kernel
  have he : Engine.ofRules "." Sample.lenient = .ok { root := ".", incomplete := .error } := by rfl
  obtain ⟨-, -, ⟨r, hr, -, -, hissues, hfailed⟩, -⟩ :=
    check_grading he hpath ho hend
  exact ⟨_, _, r, he, hpath, ho, hend, hr, hissues, hfailed.2 (.inl rfl)⟩

end Metamath
