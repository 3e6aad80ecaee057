import Metamath.Expr
import Metamath.Statement.Basic

/-!
# Sentences

A `Sentence` is a complete statement apart from where it stands, and `Sentence.words` is how it is
written. Reading undoes writing, and accepts nothing else: tokens are read as some sentences exactly
when they are the words of these sentences (`map_sentence?_statements_iff`). The condition for that,
`Sentence.Readable`, is that no word is taken for the end of what it stands in, and that neither a
label nor the first step of a proof is taken for a keyword.
-/

namespace Metamath

/-! ## Written statements -/

/-- A proof, in one of the two formats. -/
inductive WrittenProof where
  | normal (steps : List Label)
  | compressed (labels : List Label) (chunks : List String)
deriving DecidableEq, Repr

/-- What a label is given to. -/
inductive Clause where
  | floating (typecode v : Symbol)
  | essential (e : Expr)
  | axiomatic (e : Expr)
  | provable (e : Expr) (proof : WrittenProof)
deriving DecidableEq, Repr

/-- A complete statement. -/
inductive Sentence where
  | constants (symbols : List Symbol)
  | vars (symbols : List Symbol)
  | disjoint (symbols : List Symbol)
  | openBlock
  | closeBlock
  | labelled (l : Label) (clause : Clause)
deriving DecidableEq, Repr

def WrittenProof.words : WrittenProof → List String
  | normal steps => steps ++ ["$."]
  | compressed labels chunks => "(" :: (labels ++ ")" :: (chunks ++ ["$."]))

def Clause.words : Clause → List String
  | floating typecode v => ["$f", typecode, v, "$."]
  | essential e => "$e" :: (e ++ ["$."])
  | axiomatic e => "$a" :: (e ++ ["$."])
  | provable e proof => "$p" :: (e ++ "$=" :: proof.words)

/-- The words of a sentence, in order. -/
def Sentence.words : Sentence → List String
  | constants symbols => "$c" :: (symbols ++ ["$."])
  | vars symbols => "$v" :: (symbols ++ ["$."])
  | disjoint symbols => "$d" :: (symbols ++ ["$."])
  | openBlock => ["$\x7b"]
  | closeBlock => ["$\x7d"]
  | labelled l clause => l :: clause.words

/-! ## Conditions for reading back -/

def WrittenProof.Readable : WrittenProof → Prop
  | normal steps => steps.head? ≠ some "(" ∧ "$." ∉ steps
  | compressed labels chunks => ")" ∉ labels ∧ "$." ∉ chunks

def Clause.Readable : Clause → Prop
  | floating .. => True
  | essential e | axiomatic e => "$." ∉ e
  | provable e proof => "$=" ∉ e ∧ proof.Readable

/-- The words that start a statement without a label. -/
def keywords : List String :=
  ["$c", "$v", "$d", "$\x7b", "$\x7d"]

/-- Each part of the sentence ends where its words say. -/
def Sentence.Readable : Sentence → Prop
  | constants symbols | vars symbols | disjoint symbols => "$." ∉ symbols
  | openBlock | closeBlock => True
  | labelled l clause => l ∉ keywords ∧ clause.Readable

/-! ## Segments -/

namespace Segment

/-- The words before the terminator, if there is one. -/
def words? (s : Segment) : Option (List String) :=
  s.stop.map fun _ => s.items.map Token.text

theorem words?_cons (t : Token) (s : Segment) :
    words? ⟨t :: s.items, s.stop⟩ = s.words?.map (t.text :: ·) := by
  cases h : s.stop <;> simp [words?, h]

/-- A segment is read up to the first word that is the terminator. -/
theorem words?_read_iff {terminator : String} {ts : List Token} {ws rest : List String} :
    (read terminator ts).1.words? = some ws ∧ (read terminator ts).2.map Token.text = rest ↔
      terminator ∉ ws ∧ ts.map Token.text = ws ++ terminator :: rest := by
  induction ts generalizing ws with
  | nil => simp [read, words?]
  | cons t ts ih =>
    rw [read, List.map_cons]
    split
    case isTrue ht =>
      cases ws with
      | nil => simp [words?, ht]
      | cons w ws =>
        simp only [words?, Option.map_some, List.map_nil, List.cons_append, List.cons.injEq]
        grind
    case isFalse ht =>
      dsimp only
      rw [words?_cons]
      cases ws with
      | nil => simp [ht]
      | cons w ws =>
        rw [Option.map_eq_some_iff]
        simp only [List.cons.injEq, List.cons_append, List.mem_cons, not_or]
        grind

theorem map_words?_read_iff {α : Type} {f : List String → α} {terminator : String}
    {ts : List Token} {a : α} {rest : List String} :
    (read terminator ts).1.words?.map f = some a ∧ (read terminator ts).2.map Token.text = rest ↔
      ∃ ws, f ws = a ∧ terminator ∉ ws ∧ ts.map Token.text = ws ++ terminator :: rest := by
  simp only [← words?_read_iff, Option.map_eq_some_iff]
  grind

end Segment

/-! ## Proofs -/

namespace ProofText

/-- The proof that a text holds, if it is complete. -/
def proof? : ProofText → Option WrittenProof
  | missing => none
  | normal steps => steps.words?.map .normal
  | compressed _ labels letters =>
    labels.words?.bind fun ls => letters.words?.map fun cs => .compressed ls cs

theorem proof?_normal_iff {steps : Segment} {p : WrittenProof} :
    (normal steps).proof? = some p ↔ ∃ ls, steps.words? = some ls ∧ .normal ls = p := by
  simp [proof?]

theorem proof?_compressed_iff {opening : Token} {labels letters : Segment} {p : WrittenProof} :
    (compressed opening labels letters).proof? = some p ↔
      ∃ ls cs, labels.words? = some ls ∧ letters.words? = some cs ∧ .compressed ls cs = p := by
  simp [proof?, Option.bind_eq_some_iff]

theorem proof?_read_iff {ts : List Token} {p : WrittenProof} {rest : List String} :
    (read ts).1.proof? = some p ∧ (read ts).2.map Token.text = rest ↔
      p.Readable ∧ ts.map Token.text = p.words ++ rest := by
  fun_cases read ts with
  | case1 => cases p <;> simp [proof?, WrittenProof.words]
  | case2 t ts ht labels letters =>
    rw [proof?_compressed_iff]
    constructor
    · rintro ⟨⟨ls, cs, hls, hcs, rfl⟩, hrest⟩
      obtain ⟨hc, hletters⟩ := Segment.words?_read_iff.1 ⟨hcs, hrest⟩
      obtain ⟨hl, hlabels⟩ := Segment.words?_read_iff.1 ⟨hls, hletters⟩
      exact ⟨⟨hl, hc⟩, by simp [WrittenProof.words, ht, hlabels]⟩
    · rintro ⟨hp, hwords⟩
      cases p with
      | normal steps =>
        -- a normal proof does not start with a parenthesis
        cases steps <;> simp_all [WrittenProof.words, WrittenProof.Readable]
      | compressed ls cs =>
        simp only [WrittenProof.words, List.map_cons, List.cons_append, List.append_assoc,
          List.cons.injEq, List.nil_append] at hwords
        obtain ⟨hls, hletters⟩ := Segment.words?_read_iff.2 ⟨hp.1, hwords.2⟩
        obtain ⟨hcs, hrest⟩ := Segment.words?_read_iff.2 ⟨hp.2, hletters⟩
        exact ⟨⟨ls, cs, hls, hcs, rfl⟩, hrest⟩
  | case3 t ts ht steps =>
    rw [proof?_normal_iff]
    constructor
    · rintro ⟨⟨ls, hls, rfl⟩, hrest⟩
      obtain ⟨hstop, hwords⟩ := Segment.words?_read_iff.1 ⟨hls, hrest⟩
      refine ⟨⟨?_, hstop⟩, by simp [WrittenProof.words, hwords]⟩
      cases ls <;> simp_all
    · rintro ⟨hp, hwords⟩
      cases p with
      | normal ls =>
        rw [WrittenProof.words, List.append_assoc] at hwords
        obtain ⟨hls, hrest⟩ := Segment.words?_read_iff.2 ⟨hp.2, hwords⟩
        exact ⟨⟨ls, hls, rfl⟩, hrest⟩
      | compressed ls cs => simp [WrittenProof.words, ht] at hwords

end ProofText

/-! ## Statements -/

namespace Body

/-- The clause that a body holds, if it is complete. -/
def clause? : Body → Option Clause
  | floating _ [typecode, v, stop] =>
    if stop.text = "$." then some (.floating typecode.text v.text) else none
  | essential _ expr => expr.words?.map .essential
  | axiomatic _ expr => expr.words?.map .axiomatic
  | provable _ expr proof => expr.words?.bind fun e => proof.proof?.map fun p => .provable e p
  | _ => none

theorem clause?_floating_iff {keyword : Token} {fields : List Token} {c : Clause} :
    (floating keyword fields).clause? = some c ↔
      ∃ typecode v, fields.map Token.text = [typecode, v, "$."] ∧ .floating typecode v = c := by
  rcases fields with _ | ⟨typecode, _ | ⟨v, _ | ⟨stop, _ | ⟨t, ts⟩⟩⟩⟩ <;> simp [clause?, and_assoc]

theorem clause?_provable_iff {keyword : Token} {expr : Segment} {proof : ProofText} {c : Clause} :
    (provable keyword expr proof).clause? = some c ↔
      ∃ e p, expr.words? = some e ∧ proof.proof? = some p ∧ .provable e p = c := by
  simp [clause?, Option.bind_eq_some_iff]

theorem clause?_read_iff {ts : List Token} {c : Clause} {rest : List String} :
    (read ts).1.clause? = some c ∧ (read ts).2.map Token.text = rest ↔
      c.Readable ∧ ts.map Token.text = c.words ++ rest := by
  fun_cases read ts with
  | case1 => cases c <;> simp [clause?, Clause.words]
  | case2 k ts hk =>
    rw [clause?_floating_iff]
    constructor
    · rintro ⟨⟨typecode, v, hfields, rfl⟩, hrest⟩
      refine ⟨trivial, ?_⟩
      rw [← List.take_append_drop 3 ts, List.map_cons, List.map_append, hfields, hrest, hk]
      rfl
    · rintro ⟨hc, hwords⟩
      cases c with
      | floating typecode v =>
        obtain ⟨-, hts⟩ := List.cons.inj hwords
        rw [List.map_take, List.map_drop, hts]
        exact ⟨⟨typecode, v, rfl, rfl⟩, rfl⟩
      | _ => simp [Clause.words, hk] at hwords
  | case3 k ts h₁ hk expr =>
    dsimp only [clause?, expr]
    rw [Segment.map_words?_read_iff]
    cases c <;> simp [Clause.words, Clause.Readable, hk]
  | case4 k ts h₁ h₂ hk expr =>
    dsimp only [clause?, expr]
    rw [Segment.map_words?_read_iff]
    cases c <;> simp [Clause.words, Clause.Readable, hk]
  | case5 k ts h₁ h₂ h₃ hk expr proof =>
    rw [clause?_provable_iff]
    constructor
    · rintro ⟨⟨e, p, he, hp, rfl⟩, hrest⟩
      obtain ⟨hread, hproof⟩ := ProofText.proof?_read_iff.1 ⟨hp, hrest⟩
      obtain ⟨hstop, hexpr⟩ := Segment.words?_read_iff.1 ⟨he, hproof⟩
      exact ⟨⟨hstop, hread⟩, by simp [Clause.words, hk, hexpr]⟩
    · rintro ⟨hc, hwords⟩
      cases c with
      | provable e p =>
        simp only [Clause.words, List.map_cons, List.cons_append, List.append_assoc,
          List.cons.injEq] at hwords
        obtain ⟨he, hproof⟩ := Segment.words?_read_iff.2 ⟨hc.1, hwords.2⟩
        obtain ⟨hp, hrest⟩ := ProofText.proof?_read_iff.2 ⟨hc.2, hproof⟩
        exact ⟨⟨e, p, he, hp, rfl⟩, hrest⟩
      | _ => simp [Clause.words, hk] at hwords
  | case6 k ts h₁ h₂ h₃ h₄ => cases c <;> simp_all [clause?, Clause.words]

end Body

namespace Statement

/-- The sentence that a statement holds, if it is complete. -/
def sentence? : Statement → Option Sentence
  | constants _ symbols => symbols.words?.map .constants
  | vars _ symbols => symbols.words?.map .vars
  | disjoint _ symbols => symbols.words?.map .disjoint
  | openBlock _ => some .openBlock
  | closeBlock _ => some .closeBlock
  | labelled label body => body.clause?.map (.labelled label.text)

/-- A keyword is not read as a label. -/
theorem not_labelled_of_keyword {t : Token} (ht : t.text ∈ keywords) (ts : List Token) (l : Label)
    (clause : Clause) (rest : List String) :
    ¬ ((Sentence.labelled l clause).Readable ∧
      (t :: ts).map Token.text = (Sentence.labelled l clause).words ++ rest) := by
  rintro ⟨⟨hl, -⟩, hwords⟩
  obtain ⟨rfl, -⟩ := List.cons.inj hwords
  exact hl ht

/-- The statement at the start of some tokens is read as a sentence exactly when the tokens start
with its words. -/
theorem sentence?_read_iff {t : Token} {ts : List Token} {st : Sentence} {rest : List String} :
    (read t ts).1.sentence? = some st ∧ (read t ts).2.map Token.text = rest ↔
      st.Readable ∧ (t :: ts).map Token.text = st.words ++ rest := by
  fun_cases read t ts with
  | case1 ht symbols =>
    dsimp only [sentence?, symbols]
    rw [Segment.map_words?_read_iff]
    cases st with
    | labelled l clause =>
      exact iff_of_false (by simp) (not_labelled_of_keyword (by simp [keywords, ht]) ts l clause rest)
    | _ => simp [Sentence.words, Sentence.Readable, ht]
  | case2 h₁ ht symbols =>
    dsimp only [sentence?, symbols]
    rw [Segment.map_words?_read_iff]
    cases st with
    | labelled l clause =>
      exact iff_of_false (by simp) (not_labelled_of_keyword (by simp [keywords, ht]) ts l clause rest)
    | _ => simp [Sentence.words, Sentence.Readable, ht]
  | case3 h₁ h₂ ht symbols =>
    dsimp only [sentence?, symbols]
    rw [Segment.map_words?_read_iff]
    cases st with
    | labelled l clause =>
      exact iff_of_false (by simp) (not_labelled_of_keyword (by simp [keywords, ht]) ts l clause rest)
    | _ => simp [Sentence.words, Sentence.Readable, ht]
  | case4 h₁ h₂ h₃ ht =>
    cases st with
    | labelled l clause =>
      exact iff_of_false (by simp [sentence?])
        (not_labelled_of_keyword (by simp [keywords, ht]) ts l clause rest)
    | _ => simp [sentence?, Sentence.words, Sentence.Readable, ht]
  | case5 h₁ h₂ h₃ h₄ ht =>
    cases st with
    | labelled l clause =>
      exact iff_of_false (by simp [sentence?])
        (not_labelled_of_keyword (by simp [keywords, ht]) ts l clause rest)
    | _ => simp [sentence?, Sentence.words, Sentence.Readable, ht]
  | case6 h₁ h₂ h₃ h₄ h₅ body =>
    cases st with
    | labelled l clause =>
      have hl : t.text ∉ keywords := by simp [keywords, h₁, h₂, h₃, h₄, h₅]
      have hbody : body.1.clause? = some clause ∧ body.2.map Token.text = rest ↔
          clause.Readable ∧ ts.map Token.text = clause.words ++ rest := Body.clause?_read_iff
      simp only [sentence?, Option.map_eq_some_iff, Sentence.labelled.injEq, Sentence.Readable,
        Sentence.words, List.map_cons, List.cons_append, List.cons.injEq]
      grind
    | _ => simp [sentence?, Sentence.words, h₁, h₂, h₃, h₄, h₅]

end Statement

/-- Tokens are read as some sentences exactly when they are the words of these sentences. -/
theorem map_sentence?_statements_iff {ts : List Token} {sts : List Sentence} :
    (statements ts).map Statement.sentence? = sts.map some ↔
      (∀ st ∈ sts, st.Readable) ∧ ts.map Token.text = sts.flatMap Sentence.words := by
  fun_induction statements ts generalizing sts with
  | case1 =>
    cases sts with
    | nil => simp
    | cons st sts => cases st <;> simp [Sentence.words]
  | case2 t ts ih =>
    cases sts with
    | nil => simp
    | cons st sts =>
      rw [List.map_cons, List.map_cons, List.cons.injEq, ih, List.forall_mem_cons,
        List.flatMap_cons, and_assoc, and_left_comm, Statement.sentence?_read_iff]
      exact and_left_comm

/-- A complete statement that is read is written with the words of its sentence. -/
theorem Statement.map_text_tokens {ts : List Token} {raw : Statement} (hraw : raw ∈ statements ts)
    {st : Sentence} (h : raw.sentence? = some st) : raw.tokens.map Token.text = st.words := by
  fun_induction statements ts with
  | case1 => cases hraw
  | case2 t ts ih =>
    rcases List.mem_cons.1 hraw with rfl | hraw
    · have hwords := (sentence?_read_iff.1 ⟨h, rfl⟩).2
      rw [← tokens_read t ts, List.map_append] at hwords
      exact List.append_cancel_right hwords
    · exact ih hraw

end Metamath
