import Metamath.Batch
import Metamath.Proofs.Engine.Reading
import Metamath.Proofs.Pool

/-!
# Directories

The files of a directory are checked by a pool. A check that is not interrupted from outside is never
broken off, so the pool is an orderly one: whatever the schedule and the number of workers, there is
one report for each file, the one it would have alone, and all of them in the order of the files
(`checkPath_scheduling`).
-/

namespace Metamath

/-! ## One file -/

theorem unreadable_failed (path : String) (f : Failure) : (unreadable path f).failed :=
  rfl

namespace Engine

variable {e : Engine} {t : FileTree} {path : String}

theorem filename_of_check {interrupt : Option Interruption} {r : FileReport}
    (h : e.check t interrupt path = .ok r) : r.filename = path := by
  obtain hc | ⟨err, hc⟩ | ⟨o, -, hc⟩ := e.check_cases t interrupt path <;> rw [hc] at h
  · cases h
    rfl
  · cases h
  · obtain ⟨d?, hd⟩ | ⟨f, -, hf⟩ := e.report_cases path o
    · rw [report_of_diagnostic hd] at h
      cases h
      rfl
    · rw [hf] at h
      cases h

/-- A check that is not interrupted from outside does not end with an interruption. -/
theorem check_ne_interrupted (e : Engine) (t : FileTree) (path : String) (i : Interruption) :
    e.check t none path ≠ .error (.interrupted i) := by
  intro h
  obtain hc | ⟨err, hc⟩ | ⟨o, ho, hc⟩ := e.check_cases t none path <;> rw [hc] at h
  · cases h
  · cases h
  · obtain ⟨d?, hd⟩ | ⟨f, hfailure, hf⟩ := e.report_cases path o
    · rw [report_of_diagnostic hd] at h
      cases h
    · obtain rfl := Except.error.inj (hf.symm.trans h)
      rcases (FileTree.sourced_verifyFile ho).2 _ hfailure with hsourced | ⟨j, hj, -⟩
      · exact hsourced
      · cases hj

/-- The report on a file on its own, which may say that it cannot be read. -/
def soleReport (e : Engine) (t : FileTree) (path : String) : FileReport :=
  match e.check t none path with
  | .ok r => r
  | .error f => unreadable path f

theorem soleReport_cases (e : Engine) (t : FileTree) (path : String) :
    e.check t none path = .ok (e.soleReport t path) ∨
      ∃ f, e.check t none path = .error f ∧ e.soleReport t path = unreadable path f := by
  unfold soleReport
  split
  · exact .inl ‹_›
  · exact .inr ⟨_, ‹_›, rfl⟩

theorem filename_soleReport (e : Engine) (t : FileTree) (path : String) :
    (e.soleReport t path).filename = path := by
  rcases e.soleReport_cases t path with h | ⟨f, -, h⟩
  · exact filename_of_check h
  · rw [h]
    rfl

/-- A file of a directory has the report that it has on its own. -/
theorem checkMember_none (e : Engine) (t : FileTree) (path : String) :
    e.checkMember t none path = .ok (e.soleReport t path) := by
  have hsame : e.checkUntil t (none.map fun after => { cause := .canceled, after }) path =
      e.check t none path := rfl
  unfold checkMember soleReport
  rw [hsame]
  split
  · rename_i h
    rw [h]
  · rename_i i h
    exact absurd h (e.check_ne_interrupted t path i)
  · rename_i h
    rw [h]

end Engine

theorem BatchOptions.limit_pos (o : BatchOptions) : 0 < o.limit := by
  unfold limit
  split
  · exact o.processors.2
  · omega

/-! ## All files -/

theorem Engine.checkPath_folder (e : Engine) {t : FileTree} (o : BatchOptions) {path : String}
    (hdir : t.statFolder path = .ok true) :
    e.checkPath t o none path = .ok ((t.databases path o.extensions).map (e.soleReport t)) := by
  rw [checkPath, hdir, Pool.run_eq_ok o.limit_pos fun file _ => e.checkMember_none t file]
  rfl

/-- A directory is checked alike by every schedule of any number of workers. There is one report for
each of its files, in order: what the check of the file alone gives, or, where that fails, a report
that says so. A schedule can go on until there are all reports, and has then made two moves for each
file. -/
theorem checkPath_scheduling (e : Engine) (t : FileTree) (o : BatchOptions) {path : String}
    (hdir : t.statFolder path = .ok true) :
    ∃ reports, e.checkPath t o none path = .ok reports ∧
      reports.map FileReport.filename = t.databases path o.extensions ∧
      List.Forall₂ (fun file r => e.check t none file = .ok r ∨
          ∃ f, e.check t none file = .error f ∧ r = unreadable file f ∧ r.failed ∧
            r.issues.map Issue.rule = ["read-error"])
        (t.databases path o.extensions) reports ∧
      ∀ limit moves p, 0 < limit →
        Pool.Schedule limit (e.checkMember t) (.ofJobs (t.databases path o.extensions)) moves p →
          moves.length + p.remaining = 2 * reports.length ∧
          (p.remaining = 0 → p.outcome = .ok reports) ∧
          (p.remaining ≠ 0 → ∃ m q, p.move? limit (e.checkMember t) m = some q) := by
  generalize hfiles : t.databases path o.extensions = files
  have hmember : ∀ file ∈ files, e.checkMember t none file = .ok (e.soleReport t file) :=
    fun file _ => e.checkMember_none t file
  refine ⟨files.map (e.soleReport t), hfiles ▸ e.checkPath_folder o hdir, ?_, ?_, ?_⟩
  · simp [Function.comp_def, Engine.filename_soleReport]
  · rw [List.forall₂_map_right_iff, List.forall₂_same]
    intro file _
    rcases e.soleReport_cases t file with h | ⟨f, hf, h⟩
    · exact .inl h
    · exact .inr ⟨f, hf, h, h ▸ unreadable_failed file f, h ▸ rfl⟩
  · intro limit moves p hlimit hp
    have hstart : Pool.Orderly files (e.soleReport t) (.ofJobs files : Pool _ _ Interruption) :=
      .ofJobs files _
    obtain ⟨horderly, hcount⟩ := hstart.schedule hmember hp
    have htotal : (Pool.ofJobs files : Pool _ FileReport Interruption).remaining =
        2 * files.length := by
      simp [Pool.remaining, Pool.ofJobs]
    refine ⟨by rw [hcount, htotal, List.length_map], horderly.outcome, fun hleft => ?_⟩
    obtain ⟨m, q, -, hq⟩ := horderly.exists_move (e.checkMember t) hlimit hleft
    exact ⟨m, q, hq⟩

namespace Sample

/-- A file that only includes another one. -/
def including : Source where
  bytes := utf8 "$[ inc.mm $]"

theorem lex_including (file : String) :
    including.lex file = ⟨[⟨"$[", ⟨file, 0, 1, 1⟩⟩, ⟨"inc.mm", ⟨file, 3, 1, 4⟩⟩,
      ⟨"$]", ⟨file, 10, 1, 11⟩⟩], none⟩ := by
  have hruns : runs including.bytes = [⟨⟨0, 1, 1⟩, utf8 "$[", true⟩,
      ⟨⟨3, 1, 4⟩, utf8 "inc.mm", true⟩, ⟨⟨10, 1, 11⟩, utf8 "$]", false⟩] := by decide +kernel
  rw [Source.lex_eq_scan, hruns]
  rfl

/-- A directory in which the file that is included is missing. -/
def shelf : FileTree where
  files := [(["d", "a.mm"], utf8 "$c w $."), (["d", "b.mm"], including.bytes), (["d", "c.txt"], [])]

def missing : Failure :=
  .notIncluded ⟨"d/b.mm", 3, 1, 4⟩ "inc.mm" (.file ⟨.openFile, "d/inc.mm", .noSuchFile⟩)

theorem databases_shelf : shelf.databases "d" [".mm"] = ["d/a.mm", "d/b.mm"] := by
  have hlocate : shelf.locate "d" = .ok ["d"] := by rfl
  have hsorted : (shelf.files.map Prod.fst).Pairwise fun a b => !decide (b < a) := by decide
  have hbelow : (shelf.files.map Prod.fst).filter (fun f => ["d"].isPrefixOf f && f != ["d"]) =
      shelf.files.map Prod.fst := by decide
  rw [FileTree.databases, FileTree.walk, hlocate]
  simp only [hbelow, List.mergeSort_of_pairwise hsorted]
  rfl

theorem check_missing (e : Engine) (h : e.isIgnored "d/b.mm" = false) :
    e.check shelf none "d/b.mm" = .error missing := by
  have hname : '$' ∉ "inc.mm".toList := by decide
  have hplace : InPlace (shelf.opener "d").openFile ["d/b.mm"] (including.lex "d/b.mm")
      (.fail missing) ["inc.mm", "d/b.mm"] := by
    rw [lex_including]
    exact .notOpened ⟨rfl, hname, rfl⟩ (by decide) (by rfl)
  have hopen : shelf.openFile "d/b.mm" = .ok including := by rfl
  have hdir : Path.directory "d/b.mm" = "d" := by decide
  have hverify : shelf.verifyFile "d/b.mm" = .ok (run none (.fail missing)) := by
    rw [FileTree.verifyFile_of_openFile hopen, hdir, hplace.expand_eq]
  have hfailure : (run none (.fail missing)).failure = some missing := by
    simp [run, Stream.fail, statements, runFrom, interruption?, Session.close]
  rw [Engine.check_eq_report h hverify]
  simp only [Engine.report, hfailure]
  rfl

def options : BatchOptions where
  extensions := [".mm"]
  processors := ⟨8, by decide⟩

end Sample

theorem shelf_scheduling :
    Sample.shelf.statFolder "d" = .ok true ∧
      Sample.shelf.databases "d" [".mm"] = ["d/a.mm", "d/b.mm"] ∧
      ∃ r, r.filename = "d/a.mm" ∧
        Engine.checkPath { root := "." } Sample.shelf Sample.options none "d" =
          .ok [r, unreadable "d/b.mm" Sample.missing] := by
  have hdir : Sample.shelf.statFolder "d" = .ok true := by decide
  obtain ⟨reports, hreports, hnames, heach, -⟩ :=
    checkPath_scheduling { root := "." } Sample.shelf Sample.options hdir
  refine ⟨hdir, Sample.databases_shelf, ?_⟩
  rw [show Sample.options.extensions = [".mm"] from rfl, Sample.databases_shelf] at hnames heach
  obtain ⟨a, b, rfl⟩ : ∃ a b, reports = [a, b] := by
    rw [← List.length_eq_two, ← List.length_map, hnames]
    rfl
  have hcheck := Sample.check_missing { root := "." } rfl
  simp only [List.forall₂_cons, List.Forall₂.nil, and_true, hcheck] at heach
  obtain ⟨-, hb | ⟨f, hf, hb, -⟩⟩ := heach
  · cases hb
  · cases hf
    exact ⟨a, (List.cons.inj hnames).1, hb ▸ hreports⟩

end Metamath
