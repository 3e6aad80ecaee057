import Metamath.Proofs.Database.WellFormed
import Metamath.Statement.Execute

/-!
# What a run can do

`Session.Change` lists what carrying out one statement can do to a session: make declarations that
need no proof, declare a theorem whose proof is refused, or declare a theorem and accept its proof.
`execute_change` says that there is nothing else. A database is `Loaded` when some run holds it at
its end, which includes runs that are stopped anywhere; loaded databases are well-formed and all
their labels are made of label characters.
-/

namespace Metamath

open Database (Declares)

/-- A declaration that has no proof: anything but a theorem. -/
def Declaration.Unproved (d : Declaration) : Prop :=
  d.WellLabelled ∧ ∀ l e, d ≠ .assertion l .provable e

theorem Declaration.unproved_of_label? {d : Declaration} (h : d.label? = none) : d.Unproved := by
  refine ⟨by simp [WellLabelled, h], ?_⟩
  rintro l e rfl
  cases h

/-- A proof of a theorem, in one of the two formats, has a verdict. -/
def HasVerdict (db : Database) (thm : Assertion) (v : Verdict) : Prop :=
  (∃ steps, checkNormal db thm steps = v) ∨
    ∃ labels letters, checkCompressed db thm labels letters = v

namespace Session

/-- The warnings so far. -/
def warnings (s : Session) : List Diagnostic :=
  s.events.toList.filterMap Event.warning?

@[simp] theorem warnings_log (s : Session) (e : Event) :
    (s.log e).warnings = s.warnings ++ e.warning?.toList := by
  cases h : e.warning? <;> simp [warnings, log, h]

@[simp] theorem db_log (s : Session) (e : Event) : (s.log e).db = s.db := rfl

/-- What carrying out a statement can do. -/
inductive Change (s : Session) : Step → Prop
  | unproved {s' : Session} {f : Option Failure}
      (declares : Declares Declaration.Unproved s.db s'.db)
      (warnings : s'.warnings = s.warnings) : Change s (s', f)
  | refused {s' : Session} {f : Failure} {l : Label} {e : Expr} {thm : Assertion}
      (label : isLabel l) (added : s.db.addAssertion l .provable e = .ok (s'.db, thm))
      (warnings : s'.warnings = s.warnings) : Change s (s', some f)
  | proved {s' : Session} {l : Label} {e : Expr} {thm : Assertion} {v : Verdict} (pos : Position)
      (label : isLabel l) (added : s.db.addAssertion l .provable e = .ok (s'.db, thm))
      (verdict : HasVerdict s'.db thm v) (accepted : v.failure = none)
      (warnings : s'.warnings = s.warnings ++
        if v.incomplete then [{ cause := .incompleteProof l, stmt := "$p", label := l, pos }]
        else []) : Change s (s', none)

namespace Change

variable {s : Session}

theorem idle (s : Session) (f : Option Failure) : s.Change (s, f) :=
  .unproved .refl rfl

theorem declare {s' : Session} {f : Option Failure} {d : Declaration} (hd : d.Unproved)
    (h : s.db.declare d = .ok s'.db) (hw : s'.warnings = s.warnings) : s.Change (s', f) :=
  .unproved (.single hd h) hw

end Change

/-! ## One statement -/

theorem declareAll_change {declare : Database → Symbol → Except DeclarationError Database}
    (kind : Symbol → Declaration) (hk : ∀ x, (kind x).Unproved)
    (hd : ∀ db x, declare db x = Database.declare db (kind x)) (stmt : String) (s : Session)
    (ts : List Token) : Declares Declaration.Unproved s.db (s.declareAll declare stmt ts).1.db ∧
      (s.declareAll declare stmt ts).1.warnings = s.warnings := by
  induction ts generalizing s with
  | nil => exact ⟨.refl, rfl⟩
  | cons t ts ih =>
    rw [declareAll]
    cases h : declare s.db t.text with
    | error e => exact ⟨.refl, rfl⟩
    | ok db =>
      obtain ⟨h₁, h₂⟩ := ih { s with db }
      rw [hd] at h
      exact ⟨(Declares.single (hk t.text) h).trans h₁, h₂⟩

theorem executeSymbols_change {declare : Database → Symbol → Except DeclarationError Database}
    (kind : Symbol → Declaration) (hk : ∀ x, (kind x).Unproved)
    (hd : ∀ db x, declare db x = Database.declare db (kind x)) (stmt : String)
    (ending : Option Failure) (s : Session) (keyword : Token) (symbols : Segment) :
    s.Change (s.executeSymbols declare stmt ending keyword symbols) := by
  unfold executeSymbols
  split
  · exact .idle s _
  · split
    · exact .idle s _
    · obtain ⟨h₁, h₂⟩ := declareAll_change kind hk hd stmt s symbols.items
      exact .unproved h₁ h₂

theorem executeDisjoint_change (ending : Option Failure) (s : Session) (keyword : Token)
    (symbols : Segment) : s.Change (s.executeDisjoint ending keyword symbols) := by
  unfold executeDisjoint
  split
  · exact .idle s _
  · split
    · exact .idle s _
    · exact .declare (Declaration.unproved_of_label? (d := .disjoint _) rfl) ‹_› rfl

theorem executeOpen_change (s : Session) (keyword : Token) : s.Change (s.executeOpen keyword) :=
  .declare (Declaration.unproved_of_label? (d := .openScope) rfl) rfl
    ((warnings_log _ _).trans (List.append_nil _))

theorem executeClose_change (s : Session) (keyword : Token) : s.Change (s.executeClose keyword) := by
  unfold executeClose
  split
  · exact .idle s _
  · refine .declare (Declaration.unproved_of_label? (d := .closeScope) rfl) ‹_› ?_
    rw [warnings_log]
    exact List.append_nil _

theorem executeFloating_change (ending : Option Failure) (s : Session) {label : Token}
    (hl : isLabel label.text) (fields : List Token) :
    s.Change (s.executeFloating ending label fields) := by
  unfold executeFloating
  split
  · rename_i typecode v stop
    split_ifs
    · exact .idle s _
    · split
      · exact .idle s _
      · have hd : (Declaration.floating label.text typecode.text v.text).Unproved :=
          ⟨by simpa [Declaration.WellLabelled, Declaration.label?] using hl, by simp⟩
        exact .declare hd ‹_› rfl
  · exact .idle s _

theorem executeEssential_change (ending : Option Failure) (s : Session) {label : Token}
    (hl : isLabel label.text) (body : Segment) :
    s.Change (s.executeEssential ending label body) := by
  unfold executeEssential
  split
  · exact .idle s _
  · rename_i e _
    split
    · exact .idle s _
    · have hd : (Declaration.essential label.text e).Unproved :=
        ⟨by simpa [Declaration.WellLabelled, Declaration.label?] using hl, by simp⟩
      exact .declare hd ‹_› rfl

theorem executeAxiomatic_change (ending : Option Failure) (s : Session) {label : Token}
    (hl : isLabel label.text) (body : Segment) :
    s.Change (s.executeAxiomatic ending label body) := by
  unfold executeAxiomatic
  split
  · exact .idle s _
  · rename_i e _
    split
    · exact .idle s _
    · rename_i db a h
      have hd : (Declaration.assertion label.text .axiomatic e).Unproved :=
        ⟨by simpa [Declaration.WellLabelled, Declaration.label?] using hl, by simp⟩
      refine .declare hd (map_eq_ok_iff.2 ⟨_, h, rfl⟩) ?_
      rw [warnings_log]
      exact List.append_nil _

/-- A proof that is checked leaves the database alone, and an incomplete one gives a warning. -/
theorem conclude_change {s s' : Session} {e : Expr} {thm : Assertion} {label : Token}
    (hl : isLabel label.text)
    (ha : s.db.addAssertion label.text .provable e = .ok (s'.db, thm))
    (hw : s'.warnings = s.warnings) (place : Nat → Position) {v : Verdict}
    (hv : HasVerdict s'.db thm v) : s.Change (s'.conclude label place v) := by
  unfold conclude
  split
  · exact .refused hl ha hw
  · rename_i hf
    split_ifs with hi <;> refine .proved label.pos hl ha hv hf ?_
    · rw [if_pos hi, warnings_log, hw]
      rfl
    · rw [if_neg hi, warnings_log, hw]
      rfl

theorem executeProof_change (ending : Option Failure) {s : Session} (s' : Session) {e : Expr}
    {thm : Assertion} {label : Token} (hl : isLabel label.text)
    (ha : s.db.addAssertion label.text .provable e = .ok (s'.db, thm))
    (hw : s'.warnings = s.warnings) (proof : ProofText) :
    s.Change (s'.executeProof ending label thm proof) := by
  cases proof with
  | missing => exact .refused hl ha hw
  | normal steps =>
    rw [executeProof]
    split
    · exact .refused hl ha hw
    · exact .refused hl ha hw
    · exact conclude_change hl ha hw _ (.inl ⟨_, rfl⟩)
  | compressed opening labels letters =>
    rw [executeProof]
    split
    · exact .refused hl ha hw
    · exact .refused hl ha hw
    · dsimp only
      split
      · exact .refused hl ha hw
      · exact .refused hl ha hw
      · exact conclude_change hl ha hw _ (.inr ⟨_, _, rfl⟩)

theorem executeProvable_change (ending : Option Failure) (s : Session) {label : Token}
    (hl : isLabel label.text) (body : Segment) (proof : ProofText) :
    s.Change (s.executeProvable ending label body proof) := by
  unfold executeProvable
  split
  · exact .idle s _
  · split
    · exact .idle s _
    · rename_i db thm h
      exact executeProof_change ending { s with db } hl h rfl proof

/-- Carrying out a statement does nothing else than what a change can be. -/
theorem execute_change (ending : Option Failure) (s : Session) (st : Statement) :
    s.Change (s.execute ending st) := by
  cases st with
  | constants keyword symbols =>
    exact executeSymbols_change .constant (fun _ => Declaration.unproved_of_label? rfl)
      (fun _ _ => rfl) _ _ _ _ _
  | vars keyword symbols =>
    exact executeSymbols_change .var (fun _ => Declaration.unproved_of_label? rfl)
      (fun _ _ => rfl) _ _ _ _ _
  | disjoint keyword symbols => exact executeDisjoint_change ending s keyword symbols
  | openBlock keyword => exact executeOpen_change s keyword
  | closeBlock keyword => exact executeClose_change s keyword
  | labelled label body =>
    rw [execute]
    split_ifs with hl
    · exact .idle s _
    · rw [Bool.not_eq_true', Bool.not_eq_false] at hl
      split
      · exact .idle s _
      · cases body with
        | missing => exact .idle s _
        | unknown keyword => exact .idle s _
        | floating keyword fields => exact executeFloating_change ending s hl fields
        | essential keyword expr => exact executeEssential_change ending s hl expr
        | axiomatic keyword expr => exact executeAxiomatic_change ending s hl expr
        | provable keyword expr proof => exact executeProvable_change ending s hl expr proof

theorem Change.declares {s : Session} {step : Step} (h : s.Change step) :
    Declares Declaration.WellLabelled s.db step.1.db := by
  have hadd : ∀ {s' : Session} {l : Label} {e : Expr} {thm : Assertion}, isLabel l →
      s.db.addAssertion l .provable e = .ok (s'.db, thm) →
      Declares Declaration.WellLabelled s.db s'.db := fun hl ha =>
    .single (d := .assertion _ .provable _)
      (by simpa [Declaration.WellLabelled, Declaration.label?] using hl) (map_eq_ok_iff.2 ⟨_, ha, rfl⟩)
  cases h with
  | unproved declares => exact declares.mono fun _ hd => hd.1
  | refused label added => exact hadd label added
  | proved pos label added => exact hadd label added

end Session

/-! ## Runs -/

/-- What every change of a run preserves holds at its end. -/
theorem runFrom_induction {P : Session → Prop} (hP : ∀ s step, s.Change step → P s → P step.1)
    (interrupt : Option Interrupt) (ending : Option Failure) (sts : List Statement) {s : Session}
    (h : P s) (taken : Nat) : P (runFrom interrupt ending s taken sts).1 := by
  induction sts generalizing s taken with
  | nil =>
    rw [runFrom]
    split
    · exact h
    · unfold Session.close
      split <;> exact h
  | cons st sts ih =>
    have hs := hP s _ (s.execute_change ending st) h
    rw [runFrom]
    split
    · exact h
    · split <;> rename_i he <;> rw [he] at hs
      · exact hs
      · exact ih hs _

/-- What every change without a failure preserves holds at the end of an accepted run. -/
theorem runFrom_induction_of_accepted {P : Session → Prop}
    (hP : ∀ s s', s.Change (s', none) → P s → P s') {interrupt : Option Interrupt}
    {ending : Option Failure} {sts : List Statement} {s : Session} (h : P s) {taken : Nat}
    (hf : (runFrom interrupt ending s taken sts).2 = none) :
    P (runFrom interrupt ending s taken sts).1 := by
  induction sts generalizing s taken with
  | nil =>
    rw [runFrom]
    split
    · exact h
    · unfold Session.close
      split <;> exact h
  | cons st sts ih =>
    have hs := s.execute_change ending st
    rw [runFrom] at hf ⊢
    split
    · exact h
    · rename_i hi
      rw [hi] at hf
      split <;> rename_i he <;> rw [he] at hs hf
      · cases hf
      · exact ih (hP s _ hs h) hf

namespace Database

/-- A database that some run ends with, whatever ends it. -/
def Loaded (db : Database) : Prop :=
  ∃ interrupt stream, (run interrupt stream).db = db

variable {db : Database}

theorem Loaded.declares (h : db.Loaded) : Declares Declaration.WellLabelled {} db := by
  obtain ⟨interrupt, stream, rfl⟩ := h
  refine runFrom_induction (P := fun s => Declares Declaration.WellLabelled {} s.db) ?_ interrupt
    stream.failure (statements stream.tokens) (s := {}) Relation.ReflTransGen.refl 0
  exact fun s step hs h => h.trans hs.declares

theorem Loaded.wellFormed (h : db.Loaded) : db.WellFormed :=
  h.declares.wellFormed wellFormed_empty

theorem Loaded.isLabel (h : db.Loaded) : ∀ l ∈ db.labels, isLabel l :=
  h.declares.isLabel (by simp [labels])

end Database

/-! ## A small database -/

namespace Sample

/-- Implication and a quantifier. From `hyp`, `again` proves the same once more by way of a variable
that it does not mention, `once` puts an antecedent before it and `twice` a second one. -/
def text : List String :=
  ["$c", "wff", "setvar", "|-", "->", "A.", "(", ")", "$.", "$v", "p", "q", "x", "$.",
    "wp", "$f", "wff", "p", "$.", "wq", "$f", "wff", "q", "$.", "vx", "$f", "setvar", "x", "$.",
    "wi", "$a", "wff", "(", "p", "->", "q", ")", "$.", "wal", "$a", "wff", "A.", "x", "p", "$.",
    "$\x7b", "min", "$e", "|-", "p", "$.", "maj", "$e", "|-", "(", "p", "->", "q", ")", "$.",
    "mp", "$a", "|-", "q", "$.", "$\x7d",
    "ax1", "$a", "|-", "(", "p", "->", "(", "q", "->", "p", ")", ")", "$.",
    "sp", "$a", "|-", "(", "A.", "x", "p", "->", "p", ")", "$.",
    "$\x7b", "$d", "p", "x", "$.",
    "ax5", "$a", "|-", "(", "p", "->", "A.", "x", "p", ")", "$.", "$\x7d",
    "hyp", "$e", "|-", "p", "$.", "$\x7b", "$d", "p", "x", "$.",
    "again", "$p", "|-", "p", "$=", "wp", "vx", "wal", "wp", "wp", "wp", "vx", "wal", "hyp",
    "wp", "vx", "ax5", "mp", "wp", "vx", "sp", "mp", "$.", "$\x7d",
    "once", "$p", "|-", "(", "q", "->", "p", ")", "$=",
    "wp", "wq", "wp", "wi", "hyp", "wp", "wq", "ax1", "mp", "$.",
    "twice", "$p", "|-", "(", "q", "->", "(", "q", "->", "p", ")", ")", "$=",
    "wq", "wp", "wi", "wq", "wq", "wp", "wi", "wp", "wq", "hyp", "once", "again", "once", "$."]

/-- The tokens of the text, all at the same place. -/
def stream : Stream :=
  { tokens := text.map fun word => ⟨word, {}⟩ }

def axioms : List Assertion :=
  [⟨"ax5", .axiomatic, ["wp", "vx"], [⟨"p", "x"⟩], ["|-", "(", "p", "->", "A.", "x", "p", ")"]⟩,
    ⟨"sp", .axiomatic, ["wp", "vx"], [], ["|-", "(", "A.", "x", "p", "->", "p", ")"]⟩,
    ⟨"ax1", .axiomatic, ["wp", "wq"], [], ["|-", "(", "p", "->", "(", "q", "->", "p", ")", ")"]⟩,
    ⟨"mp", .axiomatic, ["wp", "wq", "min", "maj"], [], ["|-", "q"]⟩,
    ⟨"wal", .axiomatic, ["wp", "vx"], [], ["wff", "A.", "x", "p"]⟩,
    ⟨"wi", .axiomatic, ["wp", "wq"], [], ["wff", "(", "p", "->", "q", ")"]⟩]

def again : Assertion :=
  ⟨"again", .provable, ["wp", "hyp"], [], ["|-", "p"]⟩

def once : Assertion :=
  ⟨"once", .provable, ["wp", "wq", "hyp"], [], ["|-", "(", "q", "->", "p", ")"]⟩

def twice : Assertion :=
  ⟨"twice", .provable, ["wp", "wq", "hyp"], [], ["|-", "(", "q", "->", "(", "q", "->", "p", ")", ")"]⟩

/-- What the text declares. -/
def db : Database where
  constants := [")", "(", "A.", "->", "|-", "setvar", "wff"]
  vars := ["x", "q", "p"]
  hypotheses :=
    [.essential "hyp" ["|-", "p"], .essential "maj" ["|-", "(", "p", "->", "q", ")"],
      .essential "min" ["|-", "p"], .floating "vx" "setvar" "x", .floating "wq" "wff" "q",
      .floating "wp" "wff" "p"]
  assertions := twice :: once :: again :: axioms
  scope :=
    { vars := ["x", "q", "p"]
      hypotheses :=
        [.floating "wp" "wff" "p", .floating "wq" "wff" "q", .floating "vx" "setvar" "x",
          .essential "hyp" ["|-", "p"]]
      disjoint := []
      floating := [("x", "vx"), ("q", "wq"), ("p", "wp")] }
  enclosing := []

theorem loaded : db.Loaded :=
  ⟨none, stream, by decide +kernel⟩

end Sample

end Metamath
