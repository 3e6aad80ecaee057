import Metamath.Proofs.Statement.Execution

/-!
# The language of databases

A text `Describes` what performing its sentences one by one comes to. `run_accepts_iff` says that a
run accepts exactly the texts that describe something, and that it comes to what they describe:
carrying out a statement is performing its sentence (`ledger?_execute_iff`), and what is read as some
sentences is what is written as these sentences.
-/

namespace Metamath

/-- The words are those of some sentences, and these can be performed one by one, up to the end of
every block. -/
structure Describes (words : List String) (sts : List Sentence) (r : Ledger) : Prop where
  words_eq : words = sts.flatMap Sentence.words
  wellFormed : ∀ st ∈ sts, st.WellFormed
  performed : Sentence.performAll {} sts = some r
  depth_eq : r.db.depth = 1

/-! ## Runs -/

/-- The statements hold well-formed sentences, and these can be performed one by one. -/
def Statement.Performs (r : Ledger) (raws : List Statement) (r' : Ledger) : Prop :=
  ∃ sts, raws.map sentence? = sts.map some ∧ (∀ st ∈ sts, st.WellFormed) ∧
    Sentence.performAll r sts = some r'

theorem Statement.performs_nil_iff {r r' : Ledger} : Performs r [] r' ↔ r = r' := by
  constructor
  · rintro ⟨sts, hsts, -, hperform⟩
    obtain rfl := List.map_eq_nil_iff.1 hsts.symm
    exact Option.some.inj hperform
  · rintro rfl
    exact ⟨[], rfl, by simp, rfl⟩

theorem Statement.performs_cons_iff {r r' : Ledger} {raw : Statement} {raws : List Statement} :
    Performs r (raw :: raws) r' ↔
      ∃ r₁, (∃ st, raw.sentence? = some st ∧ st.WellFormed ∧ st.perform r = some r₁) ∧
        Performs r₁ raws r' := by
  constructor
  · rintro ⟨sts, hsts, hwell, hperform⟩
    cases sts with
    | nil => cases hsts
    | cons st sts =>
      obtain ⟨hst, hsts⟩ := List.cons.inj hsts
      obtain ⟨hw, hwell⟩ := List.forall_mem_cons.1 hwell
      obtain ⟨r₁, h₁, hperform⟩ := Sentence.performAll_cons_eq_some_iff.1 hperform
      exact ⟨r₁, ⟨st, hst, hw, h₁⟩, sts, hsts, hwell, hperform⟩
  · rintro ⟨r₁, ⟨st, hst, hw, h₁⟩, sts, hsts, hwell, hperform⟩
    exact ⟨st :: sts, by simp [hst, hsts], List.forall_mem_cons.2 ⟨hw, hwell⟩,
      Sentence.performAll_cons_eq_some_iff.2 ⟨r₁, h₁, hperform⟩⟩

/-- A run is accepted when its statements can be performed, up to the end of every block. -/
theorem ledger?_runFrom_iff {s : Session} (hs : s.Leveled) {taken : Nat} {raws : List Statement}
    {r : Ledger} : Step.ledger? (runFrom none none s taken raws) = some r ↔
      Statement.Performs s.ledger raws r ∧ r.db.depth = 1 := by
  induction raws generalizing s taken with
  | nil =>
    -- no block is open at the end exactly when only the outermost scope is left
    have hdepth : s.db.depth = 1 ↔ s.openings = [] := by
      rw [Database.depth, ← hs, Nat.add_eq_right, List.length_eq_zero_iff]
    rw [Statement.performs_nil_iff, runFrom, interruption?]
    dsimp only [Session.close]
    cases ho : s.openings with
    | nil =>
      rw [Step.ledger?_accepted, Option.some.injEq]
      refine ⟨fun h => ⟨h, ?_⟩, And.left⟩
      rw [← h]
      exact hdepth.2 ho
    | cons pos rest =>
      refine iff_of_false (by simp) ?_
      rintro ⟨rfl, h⟩
      rw [hdepth.1 h] at ho
      cases ho
  | cons raw raws ih =>
    rw [Statement.performs_cons_iff, runFrom, interruption?]
    simp only [← Session.ledger?_execute_iff none]
    rcases he : s.execute none raw with ⟨s', _ | f⟩
    · simp [ih (hs.execute he)]
    · simp

theorem describes_iff {ts : List Token} {sts : List Sentence} {r : Ledger} :
    Describes (ts.map Token.text) sts r ↔
      (statements ts).map Statement.sentence? = sts.map some ∧ (∀ st ∈ sts, st.WellFormed) ∧
        Sentence.performAll {} sts = some r ∧ r.db.depth = 1 := by
  constructor
  · rintro ⟨hwords, hwell, hperform, hdepth⟩
    have hread := Sentence.readable_of_performAll Database.wellNamed_empty hwell hperform
    exact ⟨map_sentence?_statements_iff.2 ⟨hread, hwords⟩, hwell, hperform, hdepth⟩
  · rintro ⟨hsts, hwell, hperform, hdepth⟩
    exact ⟨(map_sentence?_statements_iff.1 hsts).2, hwell, hperform, hdepth⟩

theorem Describes.unique {ts : List Token} {sts sts' : List Sentence} {r r' : Ledger}
    (h : Describes (ts.map Token.text) sts r) (h' : Describes (ts.map Token.text) sts' r') :
    sts' = sts := by
  have heq := (describes_iff.1 h').1.symm.trans (describes_iff.1 h).1
  exact (List.map_inj_right fun _ _ => Option.some.inj).1 heq

theorem run_accepted_iff_describes {ts : List Token} {r : Ledger} :
    (run none { tokens := ts }).failure = none ∧ (run none { tokens := ts }).session.ledger = r ↔
      ∃ sts, Describes (ts.map Token.text) sts r := by
  have hrun : Step.ledger? (runFrom none none {} 0 (statements ts)) = some r ↔
      (run none { tokens := ts }).failure = none ∧
        (run none { tokens := ts }).session.ledger = r := by
    rcases h : runFrom none none {} 0 (statements ts) with ⟨s, _ | f⟩ <;> simp [run, h]
  have hlevel : Session.Leveled {} := rfl
  rw [← hrun, ledger?_runFrom_iff hlevel]
  constructor
  · rintro ⟨⟨sts, hsts, hwell, hperform⟩, hdepth⟩
    exact ⟨sts, describes_iff.2 ⟨hsts, hwell, hperform, hdepth⟩⟩
  · rintro ⟨sts, h⟩
    obtain ⟨hsts, hwell, hperform, hdepth⟩ := describes_iff.1 h
    exact ⟨⟨sts, hsts, hwell, hperform⟩, hdepth⟩

/-- A run accepts exactly the texts that describe something. What they describe is what the run comes
to, and they do so in one way. -/
theorem run_accepts_iff (ts : List Token) :
    let o := run none { tokens := ts }
    (o.failure = none ↔ ∃ sts r, Describes (ts.map Token.text) sts r) ∧
    ∀ sts r, Describes (ts.map Token.text) sts r →
      (∀ sts' r', Describes (ts.map Token.text) sts' r' → sts' = sts) ∧
        o.db = r.db ∧ o.warnings.map Diagnostic.label = r.incomplete := by
  intro o
  refine ⟨⟨fun ho => ?_, ?_⟩, fun sts r h => ⟨fun sts' r' h' => h.unique h', ?_⟩⟩
  · obtain ⟨sts, h⟩ := run_accepted_iff_describes.1 ⟨ho, rfl⟩
    exact ⟨sts, _, h⟩
  · rintro ⟨sts, r, h⟩
    exact (run_accepted_iff_describes.2 ⟨sts, h⟩).1
  · obtain ⟨-, rfl⟩ := run_accepted_iff_describes.2 ⟨sts, h⟩
    exact ⟨rfl, rfl⟩

namespace Sample

/-- Two theorems in a block, one with a compressed proof, the other with an unknown step. -/
def sentences : List Sentence :=
  [.constants ["wff", "|-"], .vars ["p"], .labelled "wp" (.floating "wff" "p"), .openBlock,
    .labelled "hyp" (.essential ["|-", "p"]),
    .labelled "same" (.provable ["|-", "p"] (.normal ["hyp"])),
    .labelled "alike" (.provable ["|-", "p"] (.compressed ["same"] ["AB", "C"])),
    .labelled "guess" (.provable ["wff", "p"] (.normal ["?"])), .closeBlock]

def tokens : List Token :=
  (sentences.flatMap Sentence.words).map fun word => ⟨word, {}⟩

/-- What the sentences come to. -/
def ledger : Ledger :=
  (Sentence.performAll {} sentences).getD {}

end Sample

theorem sample_described :
    Describes (Sample.tokens.map Token.text) Sample.sentences Sample.ledger ∧
      (run none { tokens := Sample.tokens }).failure = none ∧
      (run none { tokens := Sample.tokens }).db = Sample.ledger.db ∧
      (run none { tokens := Sample.tokens }).warnings.map Diagnostic.label = ["guess"] := by
  have h : Describes (Sample.tokens.map Token.text) Sample.sentences Sample.ledger :=
    ⟨by decide +kernel, by simp [Sample.sentences]; decide, by decide +kernel, by decide +kernel⟩
  obtain ⟨haccepts, hcomes⟩ := run_accepts_iff Sample.tokens
  obtain ⟨-, hdb, hwarnings⟩ := hcomes _ _ h
  refine ⟨h, haccepts.2 ⟨_, _, h⟩, hdb, ?_⟩
  rw [hwarnings]
  decide +kernel

end Metamath
