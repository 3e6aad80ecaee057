import Metamath.Token.Basic

/-!
# From bytes to tokens

A `Tokenizer` reads a file byte by byte. `raw` passes separators and takes the word that follows,
`skipComment` passes words up to the one that closes a comment, and `next` gives the next token
outside of comments. `Source.lex` asks for tokens up to the end of the file or the first fault.

Where there is nothing more to give, the error of a function is what ends the file: `none` is its
proper end.
-/

namespace Metamath

/-! ## Places -/

/-- A place in a file: bytes before it, its line and its column. -/
structure Cursor where
  offset : Nat := 0
  line : Nat := 1
  column : Nat := 1
deriving DecidableEq, Repr

namespace Cursor

/-- The place after a byte: a line feed starts a line. -/
def advance (c : Cursor) (b : UInt8) : Cursor :=
  if b = 10 then ⟨c.offset + 1, c.line + 1, 1⟩ else ⟨c.offset + 1, c.line, c.column + 1⟩

/-- The place as a position in the file of that name. -/
def position (c : Cursor) (file : String) : Position :=
  ⟨file, c.offset, c.line, c.column⟩

end Cursor

/-- The failure for a fault at a place. -/
def lexFailure (file : String) (c : Cursor) (e : LexError) : Failure :=
  .diagnostic { cause := .lex e, pos := c.position file }

/-! ## Bytes -/

/-- Space, line feed, tab, form feed and carriage return separate tokens. -/
def isSeparator (b : UInt8) : Bool :=
  b == 32 || b == 10 || b == 9 || b == 12 || b == 13

/-- The bytes that a token may hold. -/
def isTokenByte (b : UInt8) : Bool :=
  0x21 ≤ b && b ≤ 0x7e

/-- A file that is read byte by byte. -/
structure ByteReader where
  /-- The byte that was read last, unless it was put back. -/
  last : Option UInt8 := none
  /-- The bytes to come. -/
  rest : Bytes
  /-- What ends the file, if it is not its proper end. -/
  failure : Option Failure
deriving DecidableEq, Repr

namespace ByteReader

/-- The next byte. -/
def read (r : ByteReader) : Except (Option Failure) (UInt8 × ByteReader) :=
  match r.rest with
  | [] => .error r.failure
  | b :: rest => .ok (b, { r with last := some b, rest })

/-- Puts the byte back that was read last. -/
def unread (r : ByteReader) : Except (Option Failure) ByteReader :=
  match r.last with
  | none => .error (some (.broken "bufio: invalid use of UnreadByte"))
  | some b => .ok { r with last := none, rest := b :: r.rest }

theorem length_lt_of_read {r r' : ByteReader} {b : UInt8} (h : r.read = .ok (b, r')) :
    r'.rest.length < r.rest.length := by
  unfold read at h
  split at h
  · cases h
  · rename_i hr
    cases h
    rw [hr]
    exact Nat.lt_succ_self _

end ByteReader

/-! ## Words -/

/-- A word of a file, in a comment or not. -/
structure Lexeme where
  start : Cursor
  bytes : Bytes
deriving DecidableEq, Repr

/-- Reads the words of a file. -/
structure Tokenizer where
  file : String
  reader : ByteReader
  cursor : Cursor := {}
deriving DecidableEq, Repr

namespace Tokenizer

/-- How much is left to read. -/
def size (t : Tokenizer) : Nat :=
  t.reader.rest.length

/-- Moves over a byte that has been read. -/
def pass (t : Tokenizer) (b : UInt8) (r : ByteReader) : Tokenizer :=
  { t with reader := r, cursor := t.cursor.advance b }

/-- Passes separators. The byte after them is read and put back. -/
def skipSeparators (t : Tokenizer) : Except (Option Failure) Tokenizer :=
  match _h : t.reader.read with
  | .error e => .error e
  | .ok (b, r) =>
    if isSeparator b then (t.pass b r).skipSeparators
    else r.unread.map fun r => { t with reader := r }
termination_by t.size
decreasing_by exact ByteReader.length_lt_of_read _h

/-- Reads what is left of a word, and passes the separator after it. The bytes of the word that are
read already are in `word`, the latest first. -/
def readWord (t : Tokenizer) (word : Bytes) : Except (Option Failure) (Bytes × Tokenizer) :=
  match _h : t.reader.read with
  | .error none => .ok (word.reverse, t)
  | .error (some f) => .error (some f)
  | .ok (b, r) =>
    if isSeparator b then .ok (word.reverse, t.pass b r)
    else if !isTokenByte b then
      .error (some (lexFailure t.file t.cursor (.invalidCharacter b)))
    else (t.pass b r).readWord (b :: word)
termination_by t.size
decreasing_by exact ByteReader.length_lt_of_read _h

/-- The next word, whether in a comment or not. -/
def raw (t : Tokenizer) : Except (Option Failure) (Lexeme × Tokenizer) :=
  match t.skipSeparators with
  | .error e => .error e
  | .ok t => (t.readWord []).map fun (word, t') => (⟨t.cursor, word⟩, t')

theorem size_of_skipSeparators {t t' : Tokenizer} (h : t.skipSeparators = .ok t') :
    0 < t'.size ∧ t'.size ≤ t.size := by
  fun_induction skipSeparators t with
  | case1 => cases h
  | case2 t b r hr hb ih =>
    have hlt := ByteReader.length_lt_of_read hr
    exact ⟨(ih h).1, Nat.le_trans (ih h).2 (Nat.le_of_lt hlt)⟩
  | case3 t b r hr hb =>
    have hlt := ByteReader.length_lt_of_read hr
    cases hu : r.unread with
    | error e => simp [hu, Except.map] at h
    | ok r' =>
      obtain rfl : { t with reader := r' } = t' := by simpa [hu, Except.map] using h
      unfold ByteReader.unread at hu
      split at hu
      · cases hu
      · cases hu
        exact ⟨Nat.succ_pos _, hlt⟩

theorem size_of_readWord {t t' : Tokenizer} {word word' : Bytes}
    (h : t.readWord word = .ok (word', t')) : t'.size ≤ t.size ∧ (0 < t.size → t'.size < t.size) := by
  fun_induction readWord t word with
  | case1 t word hr =>
    cases h
    refine ⟨Nat.le_refl _, fun hpos => ?_⟩
    unfold ByteReader.read at hr
    split at hr
    · rename_i hnil
      rw [size, hnil] at hpos
      cases hpos
    · cases hr
  | case2 => cases h
  | case3 t word b r hr hb =>
    cases h
    have hlt := ByteReader.length_lt_of_read hr
    exact ⟨Nat.le_of_lt hlt, fun _ => hlt⟩
  | case4 => cases h
  | case5 t word b r hr hb hvalid ih =>
    have hlt := Nat.lt_of_le_of_lt (ih h).1 (ByteReader.length_lt_of_read hr)
    exact ⟨Nat.le_of_lt hlt, fun _ => hlt⟩

/-- A word has a byte at least. -/
theorem size_lt_of_raw {t t' : Tokenizer} {w : Lexeme} (h : t.raw = .ok (w, t')) :
    t'.size < t.size := by
  unfold raw at h
  split at h
  · cases h
  · rename_i t₁ hskip
    obtain ⟨hpos, hle⟩ := size_of_skipSeparators hskip
    cases hread : t₁.readWord [] with
    | error e => simp [hread, Except.map] at h
    | ok read =>
      obtain ⟨word, t₂⟩ := read
      obtain ⟨-, rfl⟩ : _ ∧ t₂ = t' := by simpa [hread, Except.map] using h
      exact Nat.lt_of_lt_of_le ((size_of_readWord hread).2 hpos) hle

end Tokenizer

/-! ## Comments -/

/-- The bytes of `$(`. -/
def commentOpening : Bytes := [0x24, 0x28]

/-- The bytes of `$)`. -/
def commentClosing : Bytes := [0x24, 0x29]

/-- Whether two bytes stand side by side somewhere in a text. -/
def hasPair (a b : UInt8) : Bytes → Bool
  | x :: y :: rest => (x == a && y == b) || hasPair a b (y :: rest)
  | _ => false

/-- Whether `$(` stands somewhere in a word. -/
def holdsOpening (word : Bytes) : Bool :=
  hasPair 0x24 0x28 word

/-- Whether `$)` stands somewhere in a word. -/
def holdsClosing (word : Bytes) : Bool :=
  hasPair 0x24 0x29 word

namespace Tokenizer

/-- Passes the rest of the comment that was opened at a place. -/
def skipComment (t : Tokenizer) (opening : Cursor) : Except (Option Failure) Tokenizer :=
  match _h : t.raw with
  | .error none => .error (some (lexFailure t.file opening .unclosedComment))
  | .error (some f) => .error (some f)
  | .ok (w, t') =>
    if w.bytes = commentClosing then .ok t'
    else if holdsOpening w.bytes then .error (some (lexFailure t.file w.start .openingInComment))
    else if holdsClosing w.bytes then .error (some (lexFailure t.file w.start .closingInComment))
    else t'.skipComment opening
termination_by t.size
decreasing_by exact size_lt_of_raw _h

theorem size_le_of_skipComment {t t' : Tokenizer} {opening : Cursor}
    (h : t.skipComment opening = .ok t') : t'.size ≤ t.size := by
  fun_induction skipComment t opening with
  | case3 t w t₁ hr =>
    cases h
    exact Nat.le_of_lt (size_lt_of_raw hr)
  | case6 t w t₁ hr _ _ _ ih => exact Nat.le_trans (ih h) (Nat.le_of_lt (size_lt_of_raw hr))
  | _ => cases h

/-- The next token outside of comments. -/
def next (t : Tokenizer) : Except (Option Failure) (Token × Tokenizer) :=
  match _h : t.raw with
  | .error e => .error e
  | .ok (w, t') =>
    if w.bytes = commentOpening then
      match _hc : t'.skipComment w.start with
      | .error e => .error e
      | .ok t'' => t''.next
    else if holdsOpening w.bytes || holdsClosing w.bytes then
      .error (some (lexFailure t.file w.start (.delimiterOutsideComment (latin1 w.bytes))))
    else .ok (⟨latin1 w.bytes, w.start.position t.file⟩, t')
termination_by t.size
decreasing_by exact Nat.lt_of_le_of_lt (size_le_of_skipComment _hc) (size_lt_of_raw _h)

theorem size_lt_of_next {t t' : Tokenizer} {tok : Token} (h : t.next = .ok (tok, t')) :
    t'.size < t.size := by
  fun_induction next t with
  | case3 t w t₁ hr _ t₂ hc ih =>
    have hlt := Nat.lt_of_le_of_lt (size_le_of_skipComment hc) (size_lt_of_raw hr)
    exact Nat.lt_trans (ih h) hlt
  | case5 t w t₁ hr =>
    cases h
    exact size_lt_of_raw hr
  | _ => cases h

/-- All tokens, up to the end of the file or the first fault. -/
def stream (t : Tokenizer) : Stream :=
  match _h : t.next with
  | .error e => ⟨[], e⟩
  | .ok (tok, t') => t'.stream.cons tok
termination_by t.size
decreasing_by exact size_lt_of_next _h

end Tokenizer

namespace Source

/-- The tokenizer at the start of a file. -/
def tokenizer (file : String) (s : Source) : Tokenizer where
  file := file
  reader := { rest := s.bytes, failure := s.failure }

/-- The tokens of a file. -/
def lex (file : String) (s : Source) : Stream :=
  (s.tokenizer file).stream

end Source

end Metamath
