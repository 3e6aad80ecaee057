import Metamath.Engine
import Metamath.Proofs.Statement.Fault
import Metamath.Proofs.Token.Origin

/-!
# What is read when a file is checked

Included files are looked for in the directory of the file that is checked. What a check reports
stands at bytes of that file or of an included one, as the name in its position says
(`FileTree.Holds`, `FileTree.sourced_verifyFile`). What a check comes to is said once and for all in
`Engine.check_cases` and `Engine.report_cases`.
-/

namespace Metamath

/-- The path of what is read under a name when a file is checked. -/
def Path.readUnder (file name : String) : String :=
  if name = file then file else resolve (directory file) name

theorem Path.readUnder_self (file : String) : readUnder file file = file :=
  if_pos rfl

theorem Path.readUnder_of_ne {file name : String} (h : name ≠ file) :
    readUnder file name = resolve (directory file) name :=
  if_neg h

namespace FileTree

variable {t : FileTree} {path : String} {s : Source}

/-- A position at a byte of what is read under its name when a file is checked. -/
def Holds (t : FileTree) (file : String) (pos : Position) : Prop :=
  pos.filename ≠ "" ∧ ∃ content c, t.readFile (Path.readUnder file pos.filename) = .ok content ∧
    PlaceIn {} content c ∧ pos = c.position pos.filename

theorem ne_of_openFile (h : t.openFile path = .ok s) : path ≠ "" := by
  rintro rfl
  have hlookup : t.lookup "" = .error .noSuchFile := rfl
  rw [openFile, hlookup] at h
  cases h

/-- A file that can be opened can be read to its end, or is a directory and has no bytes. -/
theorem openFile_cases (h : t.openFile path = .ok s) :
    (∃ content, t.readFile path = .ok content ∧ s = { bytes := content }) ∨
      ∃ e, s = { bytes := [], failure := some (.file e) } := by
  unfold openFile at h
  unfold readFile
  split at h
  · cases h
  · cases h
    exact .inl ⟨_, by simp_all, rfl⟩
  · cases h
    exact .inr ⟨_, rfl⟩

/-- The tokens and faults of a file that is read under a name stand in it. -/
theorem sourced_lex_of_openFile {file name : String} (hname : name ≠ "")
    (h : t.openFile (Path.readUnder file name) = .ok s) : (s.lex name).Sourced (t.Holds file) := by
  rcases openFile_cases h with ⟨content, hread, rfl⟩ | ⟨e, rfl⟩
  · refine Source.sourced_lex (by rintro f ⟨⟩) fun c hc => ?_
    exact ⟨hname, content, c, hread, hc, rfl⟩
  · refine Source.sourced_lex (by rintro f ⟨⟩; trivial) ?_
    rintro c ⟨before, b, after, hnil, -⟩
    simp at hnil

theorem openFile_of_opener {dir name : String} (h : (t.opener dir).openFile name = .ok s) :
    t.openFile (Path.resolve dir name) = .ok s := by
  have hmap : (t.openFile (Path.resolve dir name)).mapError OpenError.file = .ok s := h
  cases ho : t.openFile (Path.resolve dir name) with
  | error e => rw [ho] at hmap; cases hmap
  | ok s' => rw [ho] at hmap; cases hmap; rfl

theorem verifyFile_of_openFile (h : t.openFile path = .ok s) (interrupt : Option Interrupt) :
    t.verifyFile path interrupt =
      .ok (run interrupt (expand (t.opener (Path.directory path)) path s)) := by
  rw [verifyFile, h]
  rfl

/-- Warnings and a diagnostic that ends the check stand in what was read. Nothing else but an
interruption from outside, or trouble with a file, ends it. -/
theorem sourced_verifyFile {interrupt : Option Interrupt} {o : Outcome}
    (h : t.verifyFile path interrupt = .ok o) :
    (∀ w ∈ o.warnings, w.kind = .incompleteProof ∧ t.Holds path w.pos) ∧
      ∀ f, o.failure = some f →
        f.Sourced (t.Holds path) ∨ ∃ i, interrupt = some i ∧ f = .interrupted i.cause := by
  cases hs : t.openFile path with
  | error err =>
    rw [verifyFile, hs] at h
    cases h
  | ok s =>
    rw [verifyFile_of_openFile hs] at h
    cases h
    have hsourced : (expand (t.opener (Path.directory path)) path s).Sourced (t.Holds path) := by
      refine sourced_expand ?_ fun name s' hname hne ho => ?_
      · refine sourced_lex_of_openFile (ne_of_openFile hs) ?_
        rwa [Path.readUnder_self]
      · refine sourced_lex_of_openFile hname ?_
        rw [Path.readUnder_of_ne hne]
        exact openFile_of_opener ho
    generalize expand (t.opener (Path.directory path)) path s = stream at hsourced
    constructor
    · intro w hw
      obtain ⟨label, hlabel, rfl⟩ := run_warning hw
      exact ⟨rfl, hsourced.pos label hlabel⟩
    · intro f hf
      rcases run_fault hf with hf | hf | ⟨d, rfl, hfatal, hpos⟩
      · exact .inl (hsourced.failure f hf)
      · exact .inr hf
      · obtain ⟨token, htoken, heq⟩ := List.mem_map.1 hpos
        exact .inl ⟨hfatal, heq ▸ hsourced.pos token htoken⟩

end FileTree

/-! ## Checks and reports -/

namespace Engine

variable {e : Engine} {t : FileTree} {interrupt : Option Interruption} {path : String} {o : Outcome}

theorem check_eq_report (h : e.isIgnored path = false)
    (ho : t.verifyFile path (startInterrupt interrupt) = .ok o) :
    e.check t interrupt path = e.report path o := by
  rw [check, checkUntil, h, ho]
  rfl

/-- A file is left out, cannot be opened, or is verified and reported on. -/
theorem check_cases (e : Engine) (t : FileTree) (interrupt : Option Interruption) (path : String) :
    e.check t interrupt path = .ok { filename := path } ∨
      (∃ err, e.check t interrupt path = .error (.notOpened path err)) ∨
      ∃ o, t.verifyFile path (startInterrupt interrupt) = .ok o ∧
        e.check t interrupt path = e.report path o := by
  cases hi : e.isIgnored path with
  | true =>
    refine .inl ?_
    rw [check, checkUntil, hi]
    rfl
  | false =>
    cases hs : t.openFile path with
    | error err =>
      refine .inr (.inl ⟨err, ?_⟩)
      rw [check, checkUntil, hi, FileTree.verifyFile, hs]
      rfl
    | ok s =>
      have ho := FileTree.verifyFile_of_openFile hs (startInterrupt interrupt)
      exact .inr (.inr ⟨_, ho, check_eq_report hi ho⟩)

/-- The report on a run that comes to an end or fails with a diagnostic. -/
theorem report_of_diagnostic {d? : Option Diagnostic} (h : o.failure = d?.map .diagnostic) :
    e.report path o = .ok {
      filename := path
      stats := o.stats
      issues := o.warnings.filterMap (e.issue? path) ++
        d?.toList.map fun d => (e.issue? path d).getD default } := by
  cases d? <;> simp_all [report]

/-- There is a report on a run unless it fails with something else than a diagnostic. -/
theorem report_cases (e : Engine) (path : String) (o : Outcome) :
    (∃ d? : Option Diagnostic, o.failure = d?.map .diagnostic) ∨
      ∃ f, o.failure = some f ∧ e.report path o = .error f := by
  cases hf : o.failure with
  | none => exact .inl ⟨none, rfl⟩
  | some f =>
    cases f with
    | diagnostic d => exact .inl ⟨some d, rfl⟩
    | _ => exact .inr ⟨_, rfl, by simp [report, hf]⟩

end Engine

end Metamath
