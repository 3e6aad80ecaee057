import Metamath.Token.Basic

/-!
# Statements

The tokens of a database fall into statements, whatever they mean: `statements` divides them, and
`Statement.tokens` gives them back. A statement that the end of the tokens cuts short keeps what
there is of it.
-/

namespace Metamath

/-! ## Segments -/

/-- Tokens up to a terminator, which is missing when the tokens end before it. -/
structure Segment where
  items : List Token
  stop : Option Token
deriving DecidableEq, Repr

namespace Segment

/-- All tokens of the segment. -/
def tokens (s : Segment) : List Token :=
  s.items ++ s.stop.toList

/-- Reads up to the first token with the text of the terminator. -/
def read (terminator : String) : List Token → Segment × List Token
  | [] => (⟨[], none⟩, [])
  | t :: ts =>
    if t.text = terminator then (⟨[], some t⟩, ts)
    else
      let r := read terminator ts
      (⟨t :: r.1.items, r.1.stop⟩, r.2)

theorem tokens_read (terminator : String) (ts : List Token) :
    (read terminator ts).1.tokens ++ (read terminator ts).2 = ts := by
  fun_induction read terminator ts with
  | case1 => rfl
  | case2 => rfl
  | case3 t ts _ r ih => simpa [tokens] using ih

end Segment

/-! ## Proofs -/

/-- The proof in a `$p` statement. -/
inductive ProofText where
  | missing
  | normal (steps : Segment)
  | compressed (opening : Token) (labels letters : Segment)
deriving DecidableEq, Repr

namespace ProofText

/-- All tokens of the proof. -/
def tokens : ProofText → List Token
  | missing => []
  | normal steps => steps.tokens
  | compressed opening labels letters => opening :: (labels.tokens ++ letters.tokens)

/-- Reads a proof: a compressed one starts with a parenthesis. -/
def read : List Token → ProofText × List Token
  | [] => (missing, [])
  | t :: ts =>
    if t.text = "(" then
      let labels := Segment.read ")" ts
      let letters := Segment.read "$." labels.2
      (compressed t labels.1 letters.1, letters.2)
    else
      let steps := Segment.read "$." (t :: ts)
      (normal steps.1, steps.2)

theorem tokens_read (ts : List Token) : (read ts).1.tokens ++ (read ts).2 = ts := by
  fun_cases read ts with
  | case1 => rfl
  | case2 t ts h labels letters =>
    simp only [tokens, List.cons_append, List.append_assoc, labels, letters, Segment.tokens_read]
  | case3 t ts h steps => simp only [tokens, steps, Segment.tokens_read]

end ProofText

/-! ## Labelled statements -/

/-- What follows a label. -/
inductive Body where
  | missing
  | unknown (keyword : Token)
  | floating (keyword : Token) (fields : List Token)
  | essential (keyword : Token) (expr : Segment)
  | axiomatic (keyword : Token) (expr : Segment)
  | provable (keyword : Token) (expr : Segment) (proof : ProofText)
deriving DecidableEq, Repr

namespace Body

/-- All tokens of the body. -/
def tokens : Body → List Token
  | missing => []
  | unknown keyword => [keyword]
  | floating keyword fields => keyword :: fields
  | essential keyword expr => keyword :: expr.tokens
  | axiomatic keyword expr => keyword :: expr.tokens
  | provable keyword expr proof => keyword :: (expr.tokens ++ proof.tokens)

/-- Reads what follows a label. A `$f` statement has three more tokens. -/
def read : List Token → Body × List Token
  | [] => (missing, [])
  | k :: ts =>
    if k.text = "$f" then (floating k (ts.take 3), ts.drop 3)
    else if k.text = "$e" then
      let expr := Segment.read "$." ts
      (essential k expr.1, expr.2)
    else if k.text = "$a" then
      let expr := Segment.read "$." ts
      (axiomatic k expr.1, expr.2)
    else if k.text = "$p" then
      let expr := Segment.read "$=" ts
      let proof := ProofText.read expr.2
      (provable k expr.1 proof.1, proof.2)
    else (unknown k, ts)

theorem tokens_read (ts : List Token) : (read ts).1.tokens ++ (read ts).2 = ts := by
  cases ts with
  | nil => rfl
  | cons k ts =>
    simp only [read]
    repeat' split
    all_goals
      simp only [tokens, List.cons_append, List.append_assoc, List.take_append_drop,
        List.nil_append, Segment.tokens_read, ProofText.tokens_read]

end Body

/-! ## Statements -/

/-- A statement as it stands in the text. -/
inductive Statement where
  | constants (keyword : Token) (symbols : Segment)
  | vars (keyword : Token) (symbols : Segment)
  | disjoint (keyword : Token) (symbols : Segment)
  | openBlock (keyword : Token)
  | closeBlock (keyword : Token)
  | labelled (label : Token) (body : Body)
deriving DecidableEq, Repr

namespace Statement

/-- All tokens of the statement. -/
def tokens : Statement → List Token
  | constants keyword symbols => keyword :: symbols.tokens
  | vars keyword symbols => keyword :: symbols.tokens
  | disjoint keyword symbols => keyword :: symbols.tokens
  | openBlock keyword => [keyword]
  | closeBlock keyword => [keyword]
  | labelled label body => label :: body.tokens

/-- Reads the statement that starts with a token. -/
def read (t : Token) (ts : List Token) : Statement × List Token :=
  if t.text = "$c" then
    let symbols := Segment.read "$." ts
    (constants t symbols.1, symbols.2)
  else if t.text = "$v" then
    let symbols := Segment.read "$." ts
    (vars t symbols.1, symbols.2)
  else if t.text = "$d" then
    let symbols := Segment.read "$." ts
    (disjoint t symbols.1, symbols.2)
  else if t.text = "$\x7b" then (openBlock t, ts)
  else if t.text = "$\x7d" then (closeBlock t, ts)
  else
    let body := Body.read ts
    (labelled t body.1, body.2)

theorem tokens_read (t : Token) (ts : List Token) :
    (read t ts).1.tokens ++ (read t ts).2 = t :: ts := by
  simp only [read]
  repeat' split
  all_goals
    simp only [tokens, List.cons_append, List.nil_append, Segment.tokens_read, Body.tokens_read]

theorem tokens_ne_nil (s : Statement) : s.tokens ≠ [] := by
  cases s <;> simp [tokens]

theorem length_read_lt (t : Token) (ts : List Token) :
    (read t ts).2.length < (t :: ts).length := by
  have h := congrArg List.length (tokens_read t ts)
  have := List.length_pos_iff.2 (read t ts).1.tokens_ne_nil
  rw [List.length_append] at h
  omega

end Statement

/-- The statements of a list of tokens. -/
def statements : List Token → List Statement
  | [] => []
  | t :: ts => (Statement.read t ts).1 :: statements (Statement.read t ts).2
termination_by ts => ts.length
decreasing_by exact Statement.length_read_lt t ts

/-- Dividing tokens into statements loses none of them. -/
theorem flatMap_tokens_statements (ts : List Token) :
    (statements ts).flatMap Statement.tokens = ts := by
  fun_induction statements ts with
  | case1 => rfl
  | case2 t ts ih => rw [List.flatMap_cons, ih, Statement.tokens_read]

end Metamath
