import Metamath.Proofs.Engine.Grading
import Metamath.Proofs.Engine.Scheduling
import Metamath.Proofs.Files.Path
import Metamath.Report.Render

/-!
# Snippets

An issue is shown with a line of the file that its name leads to from the working directory. The name
comes from a check that looked for included files in the directory of the database, so that it may
lead to another file now. The line is right if the file there has the same one, as it does if the
issue is in the database itself, if the name is absolute, and if the database is in the working
directory (`issue_quotes`). It can be wrong otherwise (`sub_main_misquoted`).
-/

namespace Metamath

/-! ## One line -/

/-- A line without its indentation. -/
def Layout.stripped (line : Bytes) : Bytes :=
  removeIndent (commonIndent [line]) line

theorem Layout.lineRange?_self (lines : List Bytes) {n : Int} (h : 1 ≤ n) :
    lineRange? lines n n = (lines[n.toNat - 1]?).map fun line => [line] := by
  obtain ⟨k, rfl⟩ : ∃ k : Nat, n = k + 1 := ⟨(n - 1).toNat, by omega⟩
  have hk : ((k : Int) + 1).toNat = k + 1 := by omega
  unfold lineRange?
  rw [hk, Nat.add_sub_cancel]
  split_ifs with hout
  · rw [List.getElem?_eq_none (by omega)]
    rfl
  · have hlt : k < lines.length := by omega
    rw [List.getElem?_eq_getElem hlt, List.take_add_one, List.getElem?_eq_getElem hlt,
      List.drop_left' (by simp; omega)]
    rfl

namespace Issue

variable {i : Issue}

theorem extent_of_stop_eq (h : i.stop = i.start) (lines : List Bytes) :
    (i.extent lines).1 = i.start.line := by
  unfold extent
  simp only [h, max_self]
  split_ifs <;> rfl

/-- An issue at a place is shown with the line of the place, if there is one. -/
theorem lines_snippet? (h : i.stop = i.start) (hv : i.start.isValid) (shown : List Bytes) :
    (i.snippet? shown).map Snippet.lines =
      (shown[i.start.line.toNat - 1]?).map fun line => [Layout.stripped line] := by
  have hline : 1 ≤ i.start.line := by
    have hpos : 0 < i.start.line := of_decide_eq_true hv
    omega
  have hextent := extent_of_stop_eq h shown
  rw [snippet?]
  simp only [hextent, Layout.lineRange?_self shown hline, Option.map_map]
  congr

/-- Whether the line that an issue is shown with, if any, is a given one. -/
def Quotes (i : Issue) (shown : List Bytes) (line : Bytes) : Prop :=
  ∀ s, i.snippet? shown = some s → s.lines = [Layout.stripped line]

theorem quotes_iff (h : i.stop = i.start) (hv : i.start.isValid) {shown : List Bytes}
    {line : Bytes} :
    i.Quotes shown line ↔ ∀ line', shown[i.start.line.toNat - 1]? = some line' →
      Layout.stripped line' = Layout.stripped line := by
  have hlines := lines_snippet? h hv shown
  constructor
  · intro hq line' hline'
    rw [hline', Option.map_some] at hlines
    obtain ⟨s, hs, hslines⟩ := Option.map_eq_some_iff.1 hlines
    rw [hq s hs] at hslines
    exact (List.cons.inj hslines).1.symm
  · intro hq s hs
    rw [hs, Option.map_some, eq_comm] at hlines
    obtain ⟨line', hline', hslines⟩ := Option.map_eq_some_iff.1 hlines
    rw [← hslines, hq line' hline']

end Issue

/-! ## The text of a report -/

theorem infix_flatMap_of_mem {α β : Type} {a : α} {l : List α} (h : a ∈ l) (f : α → List β) :
    f a <:+: l.flatMap f := by
  obtain ⟨before, after, rfl⟩ := List.append_of_mem h
  exact ⟨before.flatMap f, after.flatMap f, by simp⟩

/-- Every issue of a report is in its text, with the lines of the file that its name leads to. -/
theorem Report.render_infix (report : Report) (t : FileTree) (color : Bool) {i : Issue}
    (h : i ∈ report.issues) :
    i.render color (t.shownLines i.filename) <:+: report.render t color := by
  have hname : i.filename ∈ report.fileNames := by
    simpa [fileNames] using ⟨i, h, rfl⟩
  have hissue : i ∈ report.issuesOf i.filename := List.mem_filter.2 ⟨h, by simp⟩
  exact (infix_flatMap_of_mem hissue _).trans (infix_flatMap_of_mem hname fun name =>
    renderIssues color (t.shownLines name) (report.issuesOf name))

/-! ## The file that a name leads to -/

namespace FileTree

variable {t : FileTree} {file name : String}

theorem shownLines_getElem?_eq_some_iff {k : Nat} {line : Bytes} :
    (t.shownLines name)[k]? = some line ↔
      ∃ content, t.readFile name = .ok content ∧ content.lines[k]? = some line := by
  unfold shownLines sourceLines
  cases t.readFile name <;> simp [Except.map, Except.toOption]

/-- A name leads to the file that was read under it if that is the file that was checked, if the name
is absolute, or if the file that was checked is in the working directory. -/
theorem readFile_eq_of_readUnder {content other : Bytes}
    (h : t.readFile (Path.readUnder file name) = .ok content) (ho : t.readFile name = .ok other)
    (hplace : name = file ∨ Path.isAbsolute name ∨ t.locate (Path.directory file) = .ok t.base) :
    other = content := by
  have hsame : Path.readUnder file name = name → other = content := by
    intro heq
    rw [heq] at h
    exact Except.ok.inj (ho.symm.trans h)
  by_cases hfile : name = file
  · exact hsame (by rw [hfile, Path.readUnder_self])
  · cases habs : Path.isAbsolute name with
    | true => exact hsame (by rw [Path.readUnder_of_ne hfile, Path.resolve, habs, if_pos rfl])
    | false =>
      have hbase : t.locate (Path.directory file) = .ok t.base := by
        simpa [hfile, habs] using hplace
      have hjoin : Path.readUnder file name = Path.join (Path.directory file) name := by
        rw [Path.readUnder_of_ne hfile, Path.resolve, habs, if_neg Bool.false_ne_true]
      rw [hjoin] at h
      obtain ⟨p, hp, hentry⟩ := readFile_eq_ok_iff.1 h
      obtain ⟨p', hp', hentry'⟩ := readFile_eq_ok_iff.1 ho
      have hjoined := locate_join hbase habs hp' (locate_eq_ok_iff.1 hp).1
      obtain rfl : p = p' := Except.ok.inj (hp.symm.trans hjoined)
      rw [hentry] at hentry'
      cases hentry'
      rfl

end FileTree

/-! ## The issues of a run -/

namespace Engine

variable {e : Engine} {t : FileTree} {interrupt : Option Interruption} {path : String}
  {r : FileReport} {i : Issue}

/-- An issue is about a diagnostic that stands in what was read. -/
theorem holds_of_check (h : e.check t interrupt path = .ok r) (hi : i ∈ r.issues) :
    ∃ d severity, t.Holds path d.pos ∧ i = issue path d severity := by
  obtain hc | ⟨err, hc⟩ | ⟨o, ho, hc⟩ := e.check_cases t interrupt path <;> rw [hc] at h
  · cases h
    cases hi
  · cases h
  · obtain ⟨hwarnings, hfault⟩ := FileTree.sourced_verifyFile ho
    obtain ⟨d?, hd⟩ | ⟨f, -, hf⟩ := e.report_cases path o
    · rw [report_of_diagnostic hd] at h
      cases h
      rcases List.mem_append.1 hi with hi | hi
      · obtain ⟨w, hw, hissue⟩ := List.mem_filterMap.1 hi
        obtain ⟨severity, -, rfl⟩ := Option.map_eq_some_iff.1 hissue
        exact ⟨w, severity, (hwarnings w hw).2, rfl⟩
      · obtain ⟨d, hmem, rfl⟩ := List.mem_map.1 hi
        obtain rfl := Option.mem_toList.1 hmem
        rcases hfault _ hd with hsourced | ⟨_, -, ⟨⟩⟩
        rw [issue?_of_fatal e path hsourced.1]
        exact ⟨d, .error, hsourced.2, rfl⟩
    · rw [hf] at h
      cases h

/-- The reports of a run are those of checks of the files that they name, or say that a file cannot be
read. -/
theorem mem_checkPath {o : BatchOptions} {reports : List FileReport}
    (h : e.checkPath t o interrupt path = .ok reports) (hr : r ∈ reports) :
    (∃ interrupt, e.check t interrupt r.filename = .ok r) ∨ ∃ f, r = unreadable r.filename f := by
  cases hstat : t.statFolder path with
  | error err =>
    simp only [checkPath, hstat] at h
    cases h
  | ok isFolder =>
    cases isFolder with
    | false =>
      simp only [checkPath, hstat] at h
      obtain ⟨r', hr', rfl⟩ := map_eq_ok_iff.1 h
      obtain rfl := List.mem_singleton.1 hr
      rw [← filename_of_check hr'] at hr'
      exact .inl ⟨interrupt, hr'⟩
    | true =>
      cases interrupt with
      | some i =>
        simp only [checkPath, hstat] at h
        cases h
      | none =>
        rw [checkPath_folder e o hstat] at h
        cases h
        obtain ⟨file, -, rfl⟩ := List.mem_map.1 hr
        rw [filename_soleReport]
        rcases e.soleReport_cases t file with hcheck | ⟨f, -, hcheck⟩
        · exact .inl ⟨none, hcheck⟩
        · exact .inr ⟨f, hcheck⟩

theorem checkPaths_singleton (o : BatchOptions) (hstat : t.statFolder path = .ok false)
    (h : e.check t interrupt path = .ok r) : e.checkPaths t o interrupt [path] = .ok [r] := by
  have hpath : e.checkPath t o interrupt path = .ok [r] := by
    simp only [checkPath, hstat, h]
    rfl
  rw [checkPaths, hpath]
  rfl

theorem mem_checkPaths {o : BatchOptions} {paths : List String} {reports : List FileReport}
    (h : e.checkPaths t o interrupt paths = .ok reports) (hr : r ∈ reports) :
    (∃ interrupt, e.check t interrupt r.filename = .ok r) ∨ ∃ f, r = unreadable r.filename f := by
  induction paths generalizing reports with
  | nil =>
    cases h
    cases hr
  | cons path paths ih =>
    obtain ⟨first, hfirst, h⟩ := bind_eq_ok_iff.1 h
    obtain ⟨rest, hrest, h⟩ := bind_eq_ok_iff.1 h
    cases h
    rcases List.mem_append.1 hr with hr | hr
    · exact mem_checkPath hfirst hr
    · exact ih hrest hr

end Engine

/-- Every issue with a place is in the text of the report, and its place is in what was read under its
name, on one of the lines. If it is shown with a line, that is a line of the file that the name leads
to from the working directory. It is the line of what was read exactly if the two files have the same
text there, and they are one file if the issue is in the database itself, if the name is absolute, or
if the database is in the working directory. -/
theorem issue_quotes {e : Engine} {t : FileTree} {o : BatchOptions}
    {interrupt : Option Interruption} {paths : List String} {reports : List FileReport}
    (h : e.checkPaths t o interrupt paths = .ok reports) {r : FileReport} (hr : r ∈ reports)
    {i : Issue} (hi : i ∈ r.issues) (hv : i.start.isValid) :
    ∃ content c line, t.readFile (Path.readUnder r.filename i.filename) = .ok content ∧
      PlaceIn {} content c ∧ i.start = c.position i.filename ∧
      content.lines[c.line - 1]? = some line ∧
      (∀ runId color,
        i.render color (t.shownLines i.filename) <:+: Report.render ⟨runId, reports⟩ t color) ∧
      (i.Quotes (t.shownLines i.filename) line ↔
        ∀ other line', t.readFile i.filename = .ok other → other.lines[c.line - 1]? = some line' →
          Layout.stripped line' = Layout.stripped line) ∧
      (i.filename = r.filename ∨ Path.isAbsolute i.filename ∨
          t.locate (Path.directory r.filename) = .ok t.base →
        i.Quotes (t.shownLines i.filename) line) := by
  rcases Engine.mem_checkPaths h hr with ⟨interrupt', hcheck⟩ | ⟨f, hunreadable⟩
  · obtain ⟨d, severity, ⟨hname, content, c, hread, hplace, hpos⟩, hissue⟩ :=
      Engine.holds_of_check hcheck hi
    have hstart : i.start = d.pos := by rw [hissue]; rfl
    have hstop : i.stop = i.start := by rw [hissue]; rfl
    have hfile : i.filename = d.pos.filename := by
      rw [hissue]
      exact if_neg hname
    rw [← hfile] at hread hpos
    obtain ⟨line, hline⟩ := hplace.exists_line
    have hnumber : i.start.line.toNat = c.line := by rw [hstart, hpos]; rfl
    have hquotes : i.Quotes (t.shownLines i.filename) line ↔
        ∀ other line', t.readFile i.filename = .ok other → other.lines[c.line - 1]? = some line' →
          Layout.stripped line' = Layout.stripped line := by
      rw [Issue.quotes_iff hstop hv, hnumber]
      simp only [FileTree.shownLines_getElem?_eq_some_iff]
      constructor
      · exact fun hq other line' ho hl => hq line' ⟨other, ho, hl⟩
      · rintro hq line' ⟨other, ho, hl⟩
        exact hq other line' ho hl
    refine ⟨content, c, line, hread, hplace, hstart.trans hpos, hline, fun runId color => ?_,
      hquotes, ?_⟩
    · exact Report.render_infix ⟨runId, reports⟩ t color (List.mem_flatMap.2 ⟨r, hr, hi⟩)
    · intro hwhere
      rw [hquotes]
      intro other line' ho hl
      obtain rfl := FileTree.readFile_eq_of_readUnder hread ho hwhere
      obtain rfl := Option.some.inj (hline.symm.trans hl)
      rfl
  · rw [hunreadable] at hi
    obtain rfl := List.mem_singleton.1 hi
    cases hv

namespace Sample

/-- A constant that is declared twice. -/
def doubled (constant : String) : Source where
  bytes := utf8 s!"$c {constant} {constant} $."

def doubledFault (constant : String) : Diagnostic where
  cause := .declaration (.constantTaken constant)
  stmt := "$c"
  pos := ⟨"inc.mm", 5, 1, 6⟩

/-- Two directories with files of the same names. -/
def nested : FileTree where
  files := [(["inc.mm"], (doubled "b").bytes), (["main.mm"], including.bytes),
    (["sub", "inc.mm"], (doubled "a").bytes), (["sub", "main.mm"], including.bytes)]

/-- A file that only includes another one stands for it. -/
theorem expand_including {o : Opener} {file : String} (hfile : file ≠ "inc.mm") {s : Source}
    (ho : o.openFile "inc.mm" = .ok s) (hs : (s.lex "inc.mm").failure = none)
    (hno : ∀ t ∈ (s.lex "inc.mm").tokens, t.text ≠ "$[") :
    expand o file including = s.lex "inc.mm" := by
  have hname : '$' ∉ "inc.mm".toList := by decide
  have hnew : "inc.mm" ∉ [file] := by simpa using hfile.symm
  have hinner := inPlace_of_no_command o.openFile ["inc.mm", file] (s.lex "inc.mm").failure hno
  have hplace : InPlace o.openFile [file] (including.lex file)
      ((s.lex "inc.mm").followedBy ⟨[], none⟩) ["inc.mm", file] := by
    rw [lex_including]
    exact .included ⟨rfl, hname, rfl⟩ hnew ho hinner hs .ended
  rw [hplace.expand_eq, Stream.followedBy_nil]

theorem run_doubled : ∀ constant ∈ ["a", "b"],
    ((doubled constant).lex "inc.mm").failure = none ∧
    (∀ t ∈ ((doubled constant).lex "inc.mm").tokens, t.text ≠ "$[") ∧
    (run none ((doubled constant).lex "inc.mm")).warnings = [] ∧
    (run none ((doubled constant).lex "inc.mm")).failure =
      some (.diagnostic (doubledFault constant)) ∧
    Layout.stripped (doubled constant).bytes = (doubled constant).bytes := by
  decide +kernel

/-- The report on a database that includes a file with a doubled constant. -/
theorem checkPaths_nested {path constant : String} (hstat : nested.statFolder path = .ok false)
    (hopen : nested.openFile path = .ok including) (hpath : path ≠ "inc.mm")
    (hc : constant ∈ ["a", "b"])
    (ho : (nested.opener (Path.directory path)).openFile "inc.mm" = .ok (doubled constant)) :
    ∃ r, Engine.checkPaths { root := "." } nested options none [path] = .ok [r] ∧
      r.filename = path ∧ r.issues = [Engine.issue path (doubledFault constant) .error] := by
  obtain ⟨hs, hno, hwarnings, hfailure, -⟩ := run_doubled constant hc
  have hverify := FileTree.verifyFile_of_openFile hopen none
  rw [expand_including hpath ho hs hno] at hverify
  generalize run none ((doubled constant).lex "inc.mm") = o at hverify hwarnings hfailure
  have hkind : ∀ w ∈ o.warnings, w.kind = .incompleteProof := by simp [hwarnings]
  have hend : o.failure = (some (doubledFault constant)).map .diagnostic := hfailure
  have hreport := Engine.report_eq_ok { root := "." } path hkind hend (by rintro _ ⟨⟩; rfl)
  have hnot : Engine.isIgnored { root := "." } path = false := rfl
  have hcheck : Engine.check { root := "." } nested none path = _ :=
    (Engine.check_eq_report hnot hverify).trans hreport
  refine ⟨_, Engine.checkPaths_singleton _ hstat hcheck, rfl, ?_⟩
  simp [hwarnings]

end Sample

theorem main_quoted :
    ∃ r, Engine.checkPaths { root := "." } Sample.nested Sample.options none ["main.mm"] = .ok [r] ∧
      r.issues = [Engine.issue "main.mm" (Sample.doubledFault "b") .error] ∧
      Sample.nested.readFile (Path.readUnder "main.mm" "inc.mm") = .ok (utf8 "$c b b $.") ∧
      (Engine.issue "main.mm" (Sample.doubledFault "b") .error).Quotes
        (Sample.nested.shownLines "inc.mm") (utf8 "$c b b $.") := by
  have hstat : Sample.nested.statFolder "main.mm" = .ok false := by rfl
  have hopen : (Sample.nested.opener (Path.directory "main.mm")).openFile "inc.mm" =
      .ok (Sample.doubled "b") := by rfl
  obtain ⟨r, hpaths, hfile, hissues⟩ :=
    Sample.checkPaths_nested hstat (by rfl) (by decide) (by decide) hopen
  have hread : Sample.nested.readFile (Path.readUnder "main.mm" "inc.mm") =
      .ok (utf8 "$c b b $.") := by rfl
  refine ⟨r, hpaths, hissues, hread, ?_⟩
  have hi : Engine.issue "main.mm" (Sample.doubledFault "b") .error ∈ r.issues := by simp [hissues]
  obtain ⟨content, c, line, hcontent, -, hstart, hline, -, -, hquotes⟩ :=
    issue_quotes hpaths (.head _) hi rfl
  rw [hfile] at hcontent hquotes
  obtain rfl := Except.ok.inj (hread.symm.trans hcontent)
  have hnumber : c.line = 1 := (Int.ofNat.inj (congrArg Position.line hstart)).symm
  rw [hnumber] at hline
  obtain rfl : utf8 "$c b b $." = line := Option.some.inj hline
  exact hquotes (.inr (.inr rfl))

/-- The fault is in a file of the directory `sub`, and the line that is shown is of another file. -/
theorem sub_main_misquoted :
    ∃ r, Engine.checkPaths { root := "." } Sample.nested Sample.options none ["sub/main.mm"] =
        .ok [r] ∧
      r.issues = [Engine.issue "sub/main.mm" (Sample.doubledFault "a") .error] ∧
      Sample.nested.readFile (Path.readUnder "sub/main.mm" "inc.mm") = .ok (utf8 "$c a a $.") ∧
      ((Engine.issue "sub/main.mm" (Sample.doubledFault "a") .error).snippet?
        (Sample.nested.shownLines "inc.mm")).map Snippet.lines = some [utf8 "$c b b $."] ∧
      ¬ (Engine.issue "sub/main.mm" (Sample.doubledFault "a") .error).Quotes
        (Sample.nested.shownLines "inc.mm") (utf8 "$c a a $.") := by
  have hstat : Sample.nested.statFolder "sub/main.mm" = .ok false := by rfl
  have hopen : (Sample.nested.opener (Path.directory "sub/main.mm")).openFile "inc.mm" =
      .ok (Sample.doubled "a") := by rfl
  obtain ⟨r, hpaths, -, hissues⟩ :=
    Sample.checkPaths_nested hstat (by rfl) (by decide) (by decide) hopen
  have hshown : (Sample.nested.shownLines "inc.mm")[0]? = some (Sample.doubled "b").bytes := by rfl
  have ha : Layout.stripped (Sample.doubled "a").bytes = (Sample.doubled "a").bytes :=
    (Sample.run_doubled "a" (by decide)).2.2.2.2
  have hb : Layout.stripped (Sample.doubled "b").bytes = (Sample.doubled "b").bytes :=
    (Sample.run_doubled "b" (by decide)).2.2.2.2
  refine ⟨r, hpaths, hissues, by rfl, ?_, ?_⟩
  · rw [Issue.lines_snippet? rfl rfl]
    exact (congrArg (Option.map fun line => [Layout.stripped line]) hshown).trans
      (congrArg (fun line => some [line]) hb)
  · rw [Issue.quotes_iff rfl rfl]
    intro hquotes
    have heq : Layout.stripped (Sample.doubled "b").bytes =
        Layout.stripped (Sample.doubled "a").bytes := hquotes _ hshown
    rw [ha, hb] at heq
    exact absurd heq (by decide)

end Metamath
