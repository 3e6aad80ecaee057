import Metamath.Proofs.Statement.Placement
import Metamath.Proofs.Token.Words
import Metamath.Verify

/-!
# Layouts

A `Layout` of some words is a text in which they stand in order, with white space and comments
between them. Reading a layout gives back the words, at some positions (`Layout.spells_lex`), and
without an inclusion command among them these are all that is checked. So it does not matter how a
database is laid out (`verifySource_layout`).
-/

namespace Metamath

/-! ## Words, blanks and gaps -/

/-- A string of bytes that can stand as a token anywhere. -/
structure Word where
  bytes : Bytes
  ne_nil : bytes ≠ [] := by decide
  printable : bytes.all isTokenByte := by decide
  no_opening : hasPair 0x24 0x28 bytes = false := by decide
  no_closing : hasPair 0x24 0x29 bytes = false := by decide

def Word.text (w : Word) : String :=
  latin1 w.bytes

/-- White space: separators, and at least one. -/
structure IsBlank (bs : Bytes) : Prop where
  ne_nil : bs ≠ [] := by decide
  separators : bs.all isSeparator := by decide

/-- What a comment may hold between its delimiters, which are tokens of their own: words with white
space around them. -/
inductive CommentText : Bytes → Prop
  | blank {bs : Bytes} (hb : IsBlank bs) : CommentText bs
  | word {bs rest : Bytes} (hb : IsBlank bs) (w : Word) (hrest : CommentText rest) :
      CommentText (bs ++ (w.bytes ++ rest))

/-- White space with any number of comments in it. -/
inductive Gap : Bytes → Prop
  | blank {bs : Bytes} (hb : IsBlank bs) : Gap bs
  | comment {bs body rest : Bytes} (hb : IsBlank bs) (hbody : CommentText body)
      (hrest : Gap rest) : Gap (bs ++ (commentOpening ++ (body ++ (commentClosing ++ rest))))

/-- Words with a gap before each of them, and perhaps another one at the end. -/
inductive SpacedWords : List Word → Bytes → Prop
  | nil : SpacedWords [] []
  | gap {bs : Bytes} (h : Gap bs) : SpacedWords [] bs
  | word {ws : List Word} {bs rest : Bytes} (h : Gap bs) (w : Word) (hrest : SpacedWords ws rest) :
      SpacedWords (w :: ws) (bs ++ (w.bytes ++ rest))

/-- Words with gaps between them, and perhaps at both ends. -/
inductive Layout : List Word → Bytes → Prop
  | spaced {ws : List Word} {text : Bytes} (h : SpacedWords ws text) : Layout ws text
  | flush {ws : List Word} {rest : Bytes} (w : Word) (h : SpacedWords ws rest) :
      Layout (w :: ws) (w.bytes ++ rest)

/-! ## Where a run ends -/

/-- The text ends here, or goes on with a separator. -/
def Breaks (bs : Bytes) : Prop :=
  ∀ b ∈ bs.head?, isSeparator b

theorem IsBlank.breaks {bs : Bytes} (h : IsBlank bs) (rest : Bytes) : Breaks (bs ++ rest) := by
  obtain ⟨hne, hsep⟩ := h
  cases bs with
  | nil => exact absurd rfl hne
  | cons b bs => simpa [Breaks] using List.all_eq_true.1 hsep b (.head _)

theorem CommentText.breaks {body : Bytes} (h : CommentText body) (rest : Bytes) :
    Breaks (body ++ rest) := by
  cases h with
  | blank hb => exact hb.breaks rest
  | word hb w hrest => simpa only [List.append_assoc] using hb.breaks _

theorem Gap.breaks {bs : Bytes} (h : Gap bs) (rest : Bytes) : Breaks (bs ++ rest) := by
  cases h with
  | blank hb => exact hb.breaks rest
  | comment hb hbody hrest => simpa only [List.append_assoc] using hb.breaks _

theorem SpacedWords.breaks {ws : List Word} {text : Bytes} (h : SpacedWords ws text) :
    Breaks text := by
  cases h with
  | nil => simp [Breaks]
  | gap h => simpa using h.breaks []
  | word h w hrest => exact h.breaks _

/-! ## Runs -/

theorem not_isSeparator_of_isTokenByte {b : UInt8} (h : isTokenByte b) : isSeparator b = false := by
  cases hs : isSeparator b with
  | false => rfl
  | true =>
    simp only [isSeparator, Bool.or_eq_true, beq_iff_eq] at hs
    rcases hs with (((rfl | rfl) | rfl) | rfl) | rfl <;> exact absurd h (by decide)

theorem IsBlank.runsFrom_append {bs : Bytes} (h : IsBlank bs) (c : Cursor) (rest : Bytes) :
    runsFrom c (bs ++ rest) = runsFrom (c.advanceAll bs) rest :=
  runsFrom_append_of_separators (List.all_eq_true.1 h.separators) c rest

/-- Bytes of tokens that are followed by a separator, or by nothing, are a run. -/
theorem runsFrom_append {bs rest : Bytes} (hne : bs ≠ []) (hbs : bs.all isTokenByte)
    (hrest : Breaks rest) (c : Cursor) :
    runsFrom c (bs ++ rest) =
      ⟨c, bs, !rest.isEmpty⟩ :: runsFrom (c.advanceAll bs) rest := by
  have hword : bs.Disjoint whiteSpace := by
    intro b hb hw
    have hsep := not_isSeparator_of_isTokenByte (List.all_eq_true.1 hbs b hb)
    rw [isSeparator_iff.2 hw] at hsep
    cases hsep
  exact runsFrom_of_word (List.nil_subset _) hne hword
    (fun b hb => isSeparator_iff.1 (hrest b hb)) c

/-! ## Tokens -/

theorem firstInvalid_eq_none {bs : Bytes} (h : bs.all isTokenByte) (c : Cursor) :
    firstInvalid c bs = none :=
  firstInvalid_of_printable (printable_iff.2 h) c

/-- The tokens of a text that begins at a place. -/
def lexFrom (file : String) (comment : Option Cursor) (c : Cursor) (bs : Bytes) : Stream :=
  scan file none comment (runsFrom c bs)

variable {file : String} {rest : Bytes}

theorem IsBlank.lexFrom_append {bs : Bytes} (h : IsBlank bs) (comment : Option Cursor) (c : Cursor) :
    lexFrom file comment c (bs ++ rest) = lexFrom file comment (c.advanceAll bs) rest := by
  rw [lexFrom, lexFrom, h.runsFrom_append]

namespace Word

variable (w : Word)

theorem ne_commentOpening : w.bytes ≠ commentOpening := fun h => by
  have := w.no_opening
  rw [h] at this
  cases this

theorem ne_commentClosing : w.bytes ≠ commentClosing := fun h => by
  have := w.no_closing
  rw [h] at this
  cases this

theorem lexFrom_append (hrest : Breaks rest) (c : Cursor) :
    lexFrom file none c (w.bytes ++ rest) =
      (lexFrom file none (c.advanceAll w.bytes) rest).cons ⟨w.text, c.position file⟩ := by
  rw [lexFrom, runsFrom_append w.ne_nil w.printable hrest]
  simp [scan, firstInvalid_eq_none w.printable, holdsOpening, holdsClosing, w.no_opening,
    w.no_closing, w.ne_commentOpening, lexFrom, Run.text, Word.text]

theorem lexFrom_append_of_comment (hrest : Breaks rest) (opening c : Cursor) :
    lexFrom file (some opening) c (w.bytes ++ rest) =
      lexFrom file (some opening) (c.advanceAll w.bytes) rest := by
  rw [lexFrom, runsFrom_append w.ne_nil w.printable hrest]
  simp [scan, firstInvalid_eq_none w.printable, holdsOpening, holdsClosing, w.no_opening,
    w.no_closing, w.ne_commentClosing, lexFrom]

end Word

theorem lexFrom_commentOpening (hrest : Breaks rest) (c : Cursor) :
    lexFrom file none c (commentOpening ++ rest) =
      lexFrom file (some c) (c.advanceAll commentOpening) rest := by
  have hvalid : firstInvalid c commentOpening = none := firstInvalid_eq_none (by decide) c
  rw [lexFrom, runsFrom_append (by decide) (by decide) hrest]
  simp [scan, hvalid, lexFrom]

theorem lexFrom_commentClosing (hrest : Breaks rest) (opening c : Cursor) :
    lexFrom file (some opening) c (commentClosing ++ rest) =
      lexFrom file none (c.advanceAll commentClosing) rest := by
  have hvalid : firstInvalid c commentClosing = none := firstInvalid_eq_none (by decide) c
  rw [lexFrom, runsFrom_append (by decide) (by decide) hrest]
  simp [scan, hvalid, lexFrom]

/-! ## Reading layouts -/

theorem CommentText.lexFrom_append {body : Bytes} (h : CommentText body) (opening c : Cursor) :
    lexFrom file (some opening) c (body ++ rest) =
      lexFrom file (some opening) (c.advanceAll body) rest := by
  induction h generalizing c with
  | blank hb => exact hb.lexFrom_append _ c
  | word hb w hrest ih =>
    rw [List.append_assoc, List.append_assoc, hb.lexFrom_append,
      w.lexFrom_append_of_comment (hrest.breaks rest), ih]
    simp only [Cursor.advanceAll_append]

/-- A gap leaves nothing behind. -/
theorem Gap.lexFrom_append {bs : Bytes} (h : Gap bs) (c : Cursor) :
    lexFrom file none c (bs ++ rest) = lexFrom file none (c.advanceAll bs) rest := by
  induction h generalizing c with
  | blank hb => exact hb.lexFrom_append none c
  | @comment bs body after hb hbody hafter ih =>
    simp only [List.append_assoc, Cursor.advanceAll_append]
    rw [hb.lexFrom_append, lexFrom_commentOpening (hbody.breaks _), hbody.lexFrom_append,
      lexFrom_commentClosing (hafter.breaks rest), ih]

/-- The stream has the words as its tokens, at some positions, and does not fail. -/
def Stream.Spells (s : Stream) (ws : List Word) : Prop :=
  s.tokens.map Token.text = ws.map Word.text ∧ s.failure = none

theorem Stream.Spells.cons {s : Stream} {ws : List Word} (h : s.Spells ws) (w : Word)
    (pos : Position) : (s.cons ⟨w.text, pos⟩).Spells (w :: ws) :=
  ⟨congrArg (w.text :: ·) h.1, h.2⟩

theorem spells_lexFrom_nil (c : Cursor) : (lexFrom file none c []).Spells [] := by
  rw [lexFrom, runsFrom_of_nil c rfl]
  exact ⟨rfl, rfl⟩

theorem SpacedWords.spells_lexFrom {ws : List Word} {text : Bytes} (h : SpacedWords ws text)
    (c : Cursor) : (lexFrom file none c text).Spells ws := by
  induction h generalizing c with
  | nil => exact spells_lexFrom_nil c
  | @gap bs h =>
    rw [← List.append_nil bs, h.lexFrom_append]
    exact spells_lexFrom_nil _
  | word h w hrest ih =>
    rw [h.lexFrom_append, w.lexFrom_append hrest.breaks]
    exact (ih _).cons w _

/-- Reading a layout gives back the words. -/
theorem Layout.spells_lex {ws : List Word} {text : Bytes} (h : Layout ws text) (file : String) :
    (Source.lex file ⟨text, none⟩).Spells ws := by
  have hlex : Source.lex file ⟨text, none⟩ = lexFrom file none {} text := Source.lex_eq_scan _ _
  rw [hlex]
  cases h with
  | spaced h => exact h.spells_lexFrom {}
  | flush w h =>
    rw [w.lexFrom_append h.breaks]
    exact (h.spells_lexFrom _).cons w _

/-! ## Checking layouts -/

/-- A layout without inclusion commands expands to its words. -/
theorem Layout.spells_expand {ws : List Word} {text : Bytes} (h : Layout ws text)
    (hws : ∀ w ∈ ws, w.text ≠ "$[") (o : Opener) (file : String) :
    (expand o file ⟨text, none⟩).Spells ws := by
  have hspells := h.spells_lex file
  have hno : ∀ t ∈ (Source.lex file ⟨text, none⟩).tokens, t.text ≠ "$[" := by
    intro t ht heq
    have hmem := List.mem_map_of_mem (f := Token.text) ht
    rw [hspells.1] at hmem
    obtain ⟨w, hw, hwt⟩ := List.mem_map.1 hmem
    exact hws w hw (hwt.trans heq)
  rw [expand_of_no_command o hno]
  exact hspells

/-- Two layouts of the same words are checked alike: they give the same database and counts, and the
same warnings and failure but for positions. -/
theorem verifySource_layout {ws : List Word} (hws : ∀ w ∈ ws, w.text ≠ "$[") {text text' : Bytes}
    (h : Layout ws text) (h' : Layout ws text') (o o' : Opener) (name name' : String)
    (interrupt : Option Interrupt) :
    (verifySource o name ⟨text, none⟩ interrupt).Alike interrupt
      (verifySource o' name' ⟨text', none⟩ interrupt) := by
  obtain ⟨htexts, hnone⟩ := h.spells_expand hws o name
  obtain ⟨htexts', hnone'⟩ := h'.spells_expand hws o' name'
  exact run_alike interrupt hnone hnone' (htexts.trans htexts'.symm)

namespace Sample

def constantKeyword : Word := { bytes := [0x24, 0x63] }

def zero : Word := { bytes := [0x30] }

def stop : Word := { bytes := [0x24, 0x2e] }

def closing : Word := { bytes := [0x24, 0x7d] }

/-- A constant, and a closing brace without an opening one. -/
def words : List Word :=
  [constantKeyword, zero, stop, closing]

def dense : Bytes :=
  utf8 "$c 0 $. $\x7d"

def airy : Bytes :=
  utf8 "\n$( 0 $c $)\t$c\r\n 0 $. $( $) $( 0 $) $\x7d "

theorem isBlank_space : IsBlank [32] where

theorem layout_dense : Layout words dense :=
  .flush constantKeyword (.word (.blank isBlank_space) zero
    (.word (.blank isBlank_space) stop (.word (.blank isBlank_space) closing .nil)))

theorem layout_airy : Layout words airy := by
  have hcomment : CommentText [32, 0x30, 32, 0x24, 0x63, 32] :=
    .word isBlank_space zero (.word isBlank_space constantKeyword (.blank isBlank_space))
  have hcomment' : CommentText [32, 0x30, 32] :=
    .word isBlank_space zero (.blank isBlank_space)
  have hfirst : IsBlank [10] := {}
  have htab : IsBlank [9] := {}
  have hline : IsBlank [13, 10, 32] := {}
  have hgap : Gap (utf8 " $( $) $( 0 $) ") :=
    .comment isBlank_space (.blank isBlank_space)
      (.comment isBlank_space hcomment' (.blank isBlank_space))
  exact .spaced (.word (.comment hfirst hcomment (.blank htab)) constantKeyword
    (.word (.blank hline) zero (.word (.blank isBlank_space) stop
      (.word hgap closing (.gap (.blank isBlank_space))))))

end Sample

theorem sample_layouts_alike :
    Layout Sample.words Sample.dense ∧ Layout Sample.words Sample.airy ∧
    Sample.dense ≠ Sample.airy ∧
    (verifySource .none "a" ⟨Sample.dense, none⟩ none).Alike none
      (verifySource .none "b" ⟨Sample.airy, none⟩ none) := by
  have hwords : ∀ w ∈ Sample.words, w.text ≠ "$[" := by decide +kernel
  exact ⟨Sample.layout_dense, Sample.layout_airy, by decide +kernel,
    verifySource_layout hwords Sample.layout_dense Sample.layout_airy _ _ _ _ _⟩

end Metamath
