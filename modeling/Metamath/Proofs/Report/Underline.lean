import Metamath.Proofs.Engine.Snippets
import Metamath.Proofs.Text.Glyphs
import Metamath.Proofs.Token.Words

/-!
# Where an underline starts

An issue at a token is shown as its line without the blanks in front, behind a gutter with the
number of the line, and an underline below. The columns in front of the underline are counted in the
line as it is in the source, the columns in front of the token in the line as it is shown. Both
count the same text between the blanks and the token, from two different columns:
`Layout.foldl_advance_eq_iff` says when a text is equally wide from two columns, and
`Issue.AtToken.shows` what is shown.
-/

namespace Metamath

open Text

theorem isTokenByte_toNat_iff {b : UInt8} : isTokenByte b ↔ 0x21 ≤ b.toNat ∧ b.toNat ≤ 0x7e :=
  isTokenByte_iff

/-! ## Columns -/

namespace Layout

theorem foldl_advance_of_no_tab {gs : List Glyph} (h : ∀ g ∈ gs, g.code? ≠ some 9) (c : Nat) :
    gs.foldl advance c = c + gs.length := by
  induction gs generalizing c with
  | nil => rfl
  | cons g gs ih =>
    obtain ⟨hg, hgs⟩ := List.forall_mem_cons.1 h
    rw [List.foldl_cons, ih hgs, advance, if_neg hg, List.length_cons]
    omega

/-- Eight columns further on, everything is eight columns further on. -/
theorem foldl_advance_add (gs : List Glyph) (c k : Nat) :
    gs.foldl advance (c + 8 * k) = gs.foldl advance c + 8 * k := by
  induction gs generalizing c with
  | nil => rfl
  | cons g gs ih =>
    rw [List.foldl_cons, List.foldl_cons, ← ih]
    congr 1
    unfold advance
    split_ifs <;> omega

theorem le_foldl_advance (gs : List Glyph) (c : Nat) : c ≤ gs.foldl advance c := by
  induction gs generalizing c with
  | nil => exact Nat.le_refl c
  | cons g gs ih =>
    refine Nat.le_trans ?_ (ih (advance c g))
    unfold advance
    split_ifs <;> omega

/-- From two columns a text takes the same number of columns exactly if it has no tab or the columns
are equally far from the next tab stop. -/
theorem foldl_advance_eq_iff {gs : List Glyph} {c d : Nat} :
    gs.foldl advance c + d = gs.foldl advance d + c ↔
      (∀ g ∈ gs, g.code? ≠ some 9) ∨ c % 8 = d % 8 := by
  induction gs generalizing c d with
  | nil => simp [Nat.add_comm]
  | cons g gs ih =>
    rw [List.foldl_cons, List.foldl_cons, List.forall_mem_cons]
    by_cases hg : g.code? = some 9
    · -- both are at a tab stop from here on
      have hstop : ∀ c, gs.foldl advance (advance c g) = gs.foldl advance 0 + 8 * (c / 8 + 1) := by
        intro c
        rw [← foldl_advance_add, advance, if_pos hg]
        congr 1
        omega
      rw [hstop, hstop]
      simp only [hg, ne_eq, not_true_eq_false, false_and, false_or]
      omega
    · have hstep : ∀ c, advance c g = c + 1 := fun c => if_neg hg
      have hmod : c % 8 = d % 8 ↔ (c + 1) % 8 = (d + 1) % 8 := by omega
      rw [hstep, hstep, hmod, and_iff_right hg, ← ih]
      omega

/-- Bytes that each take one column: printable ASCII and spaces. -/
def Plain (bs : Bytes) : Prop :=
  ∀ b ∈ bs, 0x20 ≤ b.toNat ∧ b.toNat ≤ 0x7e

theorem Plain.append {as bs : Bytes} (has : Plain as) (hbs : Plain bs) : Plain (as ++ bs) :=
  List.forall_mem_append.2 ⟨has, hbs⟩

theorem Plain.notMem {bs : Bytes} (h : Plain bs) {b : UInt8} (hb : b.toNat < 0x20) : b ∉ bs :=
  fun hmem => Nat.not_lt.2 (h b hmem).1 hb

theorem Plain.lt {bs : Bytes} (h : Plain bs) : ∀ b ∈ bs, b < 0x80 := by
  intro b hb
  rw [UInt8.lt_iff_toNat_lt]
  exact Nat.lt_of_le_of_lt (h b hb).2 (by decide)

theorem plain_replicate {b : UInt8} (hb : 0x20 ≤ b.toNat ∧ b.toNat ≤ 0x7e) (n : Nat) :
    Plain (List.replicate n b) := by
  intro c hc
  rwa [List.eq_of_mem_replicate hc]

theorem plain_of_isTokenByte {bs : Bytes} (h : ∀ b ∈ bs, isTokenByte b) : Plain bs := by
  intro b hb
  have hbyte := isTokenByte_toNat_iff.1 (h b hb)
  exact ⟨Nat.le_of_succ_le hbyte.1, hbyte.2⟩

theorem Plain.foldl_advance {bs : Bytes} (h : Plain bs) (c : Nat) :
    (bs.map fun b => (⟨some b.toNat, [b]⟩ : Glyph)).foldl advance c = c + bs.length := by
  rw [foldl_advance_of_no_tab, List.length_map]
  intro g hg
  obtain ⟨b, hb, rfl⟩ := List.mem_map.1 hg
  have hb := (h b hb).1
  simp only [ne_eq, Option.some.injEq]
  omega

theorem Plain.visualWidth_eq {bs : Bytes} (h : Plain bs) : visualWidth bs = bs.length := by
  rw [visualWidth, glyphs_of_ascii h.lt, h.foldl_advance, Nat.zero_add]

/-- What follows plain bytes starts at the column after them. -/
theorem Plain.visualWidth_append {as : Bytes} (h : Plain as) (bs : Bytes) :
    visualWidth (as ++ bs) = (glyphs bs).foldl advance as.length := by
  rw [visualWidth, glyphs_append_of_ascii h.lt, List.foldl_append, h.foldl_advance, Nat.zero_add]

/-- Plain bytes add their number to the columns of what stands before them. -/
theorem Plain.visualWidth_append_right {bs : Bytes} (h : Plain bs) (as : Bytes) :
    visualWidth (as ++ bs) = visualWidth as + bs.length := by
  have hhead : ∀ c ∈ bs.head?, ¬ isTail c := by
    intro c hc htail
    have hle := (h c (List.mem_of_mem_head? hc)).2
    rw [isTail_iff] at htail
    omega
  rw [visualWidth, glyphs_append as hhead, List.foldl_append, glyphs_of_ascii h.lt, h.foldl_advance,
    visualWidth]

/-- The text after the blanks of a line takes the columns after those of the blanks. -/
theorem exists_body (before : Bytes) :
    ∃ body, before = leadingBlanks before ++ body ∧
      visualWidth before = (glyphs body).foldl advance (visualWidth (leadingBlanks before)) := by
  have hsplit := (List.takeWhile_append_dropWhile (p := Glyph.isBlank) (l := glyphs before)).symm
  obtain ⟨hblanks, hbody⟩ := glyphs_flatMap_bytes hsplit
  refine ⟨((glyphs before).dropWhile Glyph.isBlank).flatMap Glyph.bytes, ?_, ?_⟩
  · conv_lhs => rw [← flatMap_bytes_glyphs before, hsplit, List.flatMap_append]
    rfl
  · rw [visualWidth, visualWidth, leadingBlanks, hblanks, hbody, ← List.foldl_append, ← hsplit]

end Layout

/-! ## Tokens in lines -/

theorem not_isBlank_of_isTokenByte {b : UInt8} (h : isTokenByte b) : isBlank b.toNat = false := by
  rw [isTokenByte_toNat_iff] at h
  simp [isBlank]
  omega

theorem glyphs_append_token (before : Bytes) {b : UInt8} (hb : isTokenByte b) (rest : Bytes) :
    glyphs (before ++ b :: rest) = glyphs before ++ ⟨some b.toNat, [b]⟩ :: glyphs rest := by
  have hplain : Layout.Plain [b] := Layout.plain_of_isTokenByte (List.forall_mem_singleton.2 hb)
  rw [glyphs_append, glyphs_cons_of_ascii (hplain.lt b (.head _))]
  intro c hc htail
  obtain rfl : b = c := by simpa using hc
  rw [isTail_iff] at htail
  rw [isTokenByte_toNat_iff] at hb
  omega

/-- The first byte of a token ends the blanks of a line. -/
theorem leadingBlanks_append_token (before : Bytes) {b : UInt8} (hb : isTokenByte b)
    (rest : Bytes) : leadingBlanks (before ++ b :: rest) = leadingBlanks before := by
  have hblank : Glyph.isBlank ⟨some b.toNat, [b]⟩ = false := not_isBlank_of_isTokenByte hb
  unfold leadingBlanks
  rw [glyphs_append_token before hb, List.takeWhile_append,
    List.takeWhile_cons_of_neg (by simp [hblank])]
  split_ifs with hall
  · rw [List.append_nil, (List.takeWhile_prefix _).eq_of_length hall]
  · rfl

theorem isAllBlank_append_token (before : Bytes) {b : UInt8} (hb : isTokenByte b) (rest : Bytes) :
    isAllBlank (before ++ b :: rest) = false := by
  have hblank : Glyph.isBlank ⟨some b.toNat, [b]⟩ = false := not_isBlank_of_isTokenByte hb
  unfold isAllBlank
  rw [glyphs_append_token before hb]
  simp [hblank]

theorem Layout.commonIndent_append_token (before : Bytes) {b : UInt8} (hb : isTokenByte b)
    (rest : Bytes) : commonIndent [before ++ b :: rest] = leadingBlanks before := by
  simp [commonIndent, isAllBlank_append_token before hb, leadingBlanks_append_token before hb]

theorem Layout.removeIndent_append (indent rest : Bytes) :
    removeIndent indent (indent ++ rest) = rest := by
  simp [removeIndent]

/-! ## Numbers -/

theorem utf8EncodeChar_of_isDigit {c : Char} (h : c.isDigit) :
    ∃ b : UInt8, (0x30 ≤ b.toNat ∧ b.toNat ≤ 0x39) ∧ String.utf8EncodeChar c = [b] := by
  have hc : 48 ≤ c.val.toNat ∧ c.val.toNat ≤ 57 := by
    simpa [Char.isDigit, UInt32.le_iff_toNat_le] using h
  refine ⟨UInt8.ofNat c.val.toNat, ?_, ?_⟩
  · rw [UInt8.toNat_ofNat']
    omega
  · simp only [String.utf8EncodeChar]
    rw [if_pos (by omega)]

/-- A line number is as long in bytes as in characters, and holds nothing but digits. -/
theorem utf8_toString_of_nonneg {n : Int} (h : 0 ≤ n) :
    (utf8 (toString n)).length = (toString n).length ∧
      ∀ b ∈ utf8 (toString n), 0x30 ≤ b.toNat ∧ b.toNat ≤ 0x39 := by
  have hdigits : ∀ c ∈ (toString n).toList, c.isDigit := by
    rw [Int.toString_eq_repr, Int.repr_eq_if, if_pos h, Nat.toList_repr]
    exact fun c hc => Nat.isDigit_of_mem_toDigits (by decide) (by decide) hc
  rw [utf8, ← String.length_toList]
  generalize (toString n).toList = cs at hdigits
  induction cs with
  | nil => simp
  | cons c cs ih =>
    obtain ⟨hc, hcs⟩ := List.forall_mem_cons.1 hdigits
    obtain ⟨b, hb, henc⟩ := utf8EncodeChar_of_isDigit hc
    obtain ⟨hlen, hall⟩ := ih hcs
    rw [List.flatMap_cons, henc, List.singleton_append, List.length_cons, List.length_cons, hlen,
      List.forall_mem_cons]
    exact ⟨rfl, hb, hall⟩

theorem isTokenByte_of_mem_utf8_toString {n : Int} (h : 0 ≤ n) :
    ∀ b ∈ utf8 (toString n), isTokenByte b := by
  intro b hb
  have hdigit := (utf8_toString_of_nonneg h).2 b hb
  rw [isTokenByte_toNat_iff]
  omega

/-! ## Issues at a token -/

/-- An issue at a token of a line: it starts at the first byte of the token and ends there as well.
The token is printable and followed by a blank, unless the line ends. Columns are numbers of 64
bits. -/
structure Issue.AtToken (i : Issue) (source : List Bytes) (before token after : Bytes) : Prop where
  stop : i.stop = i.start
  first : 1 ≤ i.start.line
  line : source[i.start.line.toNat - 1]? = some (before ++ token ++ after)
  column : i.start.column = before.length + 1
  fits : i.start.column < 0x8000000000000000
  token_ne_nil : token ≠ []
  printable : Printable token
  delimited : ∀ b ∈ after.head?, isBlank b.toNat

namespace Issue.AtToken

variable {i : Issue} {source : List Bytes} {before token after : Bytes}

theorem isTokenByte (h : i.AtToken source before token after) : ∀ b ∈ token, isTokenByte b :=
  fun b hb => isTokenByte_iff.2 (h.printable b hb)

/-- The token ends where the bytes after it start. -/
theorem tokenEnd_eq (h : i.AtToken source before token after) :
    Layout.tokenEnd source i.start.line i.start.column = before.length + token.length := by
  obtain ⟨b, rest, rfl⟩ := List.exists_cons_of_ne_nil h.token_ne_nil
  have hlines := (List.getElem?_eq_some_iff.1 h.line).1
  have hfirst := h.first
  have hcolumn := h.column
  have hin : ¬ (i.start.line < 1 ∨ source.length < i.start.line ∨ i.start.column < 1) := by omega
  have htoNat : i.start.column.toNat = before.length + 1 := by omega
  have hdrop : (before ++ b :: rest ++ after).drop (before.length + 1) = rest ++ after := by
    simp [List.append_assoc]
  have hrest : ∀ c ∈ rest, (!isBlank c.toNat) = true := by
    intro c hc
    simp [not_isBlank_of_isTokenByte (h.isTokenByte c (.tail _ hc))]
  have hafter : after.takeWhile (fun c => !isBlank c.toNat) = [] := by
    cases hafter : after with
    | nil => rfl
    | cons c cs =>
      have hc := h.delimited c (by rw [hafter]; rfl)
      simp [hc]
  unfold Layout.tokenEnd
  rw [if_neg hin]
  simp only [h.line, Option.getD_some, htoNat, hdrop, List.takeWhile_append_of_pos hrest, hafter,
    List.append_nil, List.length_cons]
  omega

theorem extent_eq (h : i.AtToken source before token after) :
    i.extent source = (i.start.line, (before.length + token.length : Int)) := by
  unfold extent
  simp [h.stop, h.tokenEnd_eq]

theorem columnBefore_eq (h : i.AtToken source before token after) :
    i.columnBefore = before.length := by
  have hcolumn := h.column
  have hfits := h.fits
  unfold columnBefore
  rw [Int.bmod_eq_of_le] <;> omega

theorem plain (h : i.AtToken source before token after) : Layout.Plain token :=
  Layout.plain_of_isTokenByte h.isTokenByte

/-- How an issue at a token is shown: without the blanks in front of the line, and with an underline
as long as the token. -/
theorem snippet?_eq (h : i.AtToken source before token after) {body : Bytes}
    (hbody : before = leadingBlanks before ++ body) :
    i.snippet? source = some
      { first := i.start.line
        lines := [body ++ token ++ after]
        offset := Layout.visualWidth before - Layout.visualWidth (leadingBlanks before)
        length := token.length } := by
  obtain ⟨b, rest, htoken⟩ := List.exists_cons_of_ne_nil h.token_ne_nil
  have hindent : Layout.commonIndent [before ++ token ++ after] = leadingBlanks before := by
    rw [htoken, List.append_assoc, List.cons_append,
      Layout.commonIndent_append_token before (h.isTokenByte b (htoken ▸ .head _))]
  have hremove : Layout.removeIndent (leadingBlanks before) (before ++ token ++ after) =
      body ++ token ++ after := by
    have hline : before ++ token ++ after = leadingBlanks before ++ (body ++ token ++ after) := by
      conv_lhs => rw [hbody]
      simp only [List.append_assoc]
    rw [hline, Layout.removeIndent_append]
  have hbefore : Layout.firstBytes (before ++ token ++ after) before.length = before := by
    simp [Layout.firstBytes, List.append_assoc]
  have hreach : Layout.firstBytes (before ++ token ++ after) (before.length + token.length) =
      before ++ token := by
    have hlen : (before.length + token.length : Int).toNat = (before ++ token).length := by
      rw [List.length_append]
      omega
    rw [Layout.firstBytes, hlen, List.take_left]
  have hshift : Layout.visualWidth (leadingBlanks before) ≤ Layout.visualWidth before := by
    obtain ⟨_, -, hwidth⟩ := Layout.exists_body before
    rw [hwidth]
    exact Layout.le_foldl_advance _ _
  have hpos : 1 ≤ token.length := List.length_pos_iff.2 h.token_ne_nil
  have hline : Layout.lineRange? source i.start.line i.start.line =
      some [before ++ token ++ after] := by
    rw [Layout.lineRange?_self source h.first, h.line]
    rfl
  unfold snippet?
  simp only [h.extent_eq, hline, Option.map_some, hindent, h.columnBefore_eq, List.headD_cons,
    List.getLastD_cons, List.getLastD_nil, hbefore, hreach, h.plain.visualWidth_append_right,
    List.map_cons, List.map_nil, hremove, Option.some.injEq, Snippet.mk.injEq, true_and]
  omega

end Issue.AtToken

/-! ## The text of an issue -/

theorem notMem_of_mem_lines {content line : Bytes} (h : line ∈ content.lines) : 10 ∉ line := by
  rw [Bytes.lines, splitWhere_eq_splitOnP] at h
  exact notMem_of_mem_splitOn h

namespace Issue

/-- The number of columns of the line number. -/
def numberWidth (i : Issue) : Nat :=
  (toString i.start.line).length

/-- What is printed in front of a line: its number and a bar. -/
def gutter (i : Issue) : Bytes :=
  utf8 (toString i.start.line) ++ utf8 " | "

/-- What is printed in front of an underline that starts after `offset` columns. -/
def gap (i : Issue) (offset : Nat) : Bytes :=
  spaces (i.numberWidth + 1) ++ utf8 "| " ++ spaces offset

/-- The text of an issue without colors: below the header and a line with nothing but the bar, a
line of the source is shown, and an underline below it. -/
structure Shows (i : Issue) (source : List Bytes) (printed under : Bytes) : Prop where
  text : i.header false i.numberWidth ++ (spaces (i.numberWidth + 1) ++ utf8 "|\n") ++
    (printed ++ [10]) ++ (under ++ [10]) <+: i.render false source
  printed_line : 10 ∉ printed
  under_line : 10 ∉ under

variable {i : Issue}

theorem plain_gutter (h : 1 ≤ i.start.line) : Layout.Plain i.gutter := by
  refine .append (Layout.plain_of_isTokenByte ?_) ?_
  · exact isTokenByte_of_mem_utf8_toString (Int.le_trans Int.one_nonneg h)
  · simp [Layout.Plain, utf8, String.utf8EncodeChar]

theorem length_gutter (h : 1 ≤ i.start.line) : i.gutter.length = i.numberWidth + 3 := by
  rw [gutter, List.length_append, (utf8_toString_of_nonneg (Int.le_trans Int.one_nonneg h)).1]
  rfl

theorem plain_gap (offset : Nat) : Layout.Plain (i.gap offset) := by
  refine .append (.append (Layout.plain_replicate (by decide) _) ?_)
    (Layout.plain_replicate (by decide) _)
  simp [Layout.Plain, utf8, String.utf8EncodeChar]

theorem length_gap (offset : Nat) : (i.gap offset).length = i.numberWidth + 3 + offset := by
  simp only [gap, spaces, List.length_append, List.length_replicate]
  rfl

theorem tilde_notMem_gap (offset : Nat) : 0x7e ∉ i.gap offset := by
  simp [gap, spaces, utf8, String.utf8EncodeChar]

theorem header_snippetText_prefix {source : List Bytes} {s : Snippet} (hstop : i.stop = i.start)
    (hs : i.snippet? source = some s) :
    i.header false i.numberWidth ++ snippetText false i.numberWidth s <+:
      i.render false source := by
  unfold render
  rw [extent_of_stop_eq hstop source, hs]
  simp only [numberWidth, List.append_assoc, List.prefix_append_right_inj]
  exact List.prefix_append _ _

theorem snippetText_singleton {s : Snippet} {line : Bytes} (h : 1 ≤ i.start.line)
    (hfirst : s.first = i.start.line) (hlines : s.lines = [line]) :
    snippetText false i.numberWidth s =
      (spaces (i.numberWidth + 1) ++ utf8 "|\n") ++ (i.gutter ++ line ++ [10]) ++
        (i.gap s.offset ++ List.replicate s.length 0x7e ++ [10]) := by
  have hnumber := (utf8_toString_of_nonneg (Int.le_trans Int.one_nonneg h)).1
  rw [Int.toString_eq_repr] at hnumber
  simp [snippetText, paint, hlines, hfirst, gutter, gap, numberWidth, hnumber, spaces]

end Issue

/-- An issue at a token is shown by its line without the blanks in front, and an underline as long
as the token. -/
theorem Issue.AtToken.shows {content : Bytes} {i : Issue} {before token after body : Bytes}
    (h : i.AtToken content.lines before token after)
    (hbody : before = leadingBlanks before ++ body) :
    i.Shows content.lines (i.gutter ++ body ++ token ++ after)
      (i.gap (Layout.visualWidth before - Layout.visualWidth (leadingBlanks before)) ++
        List.replicate token.length 0x7e) where
  text := by
    have htext := header_snippetText_prefix h.stop (h.snippet?_eq hbody)
    rw [snippetText_singleton h.first rfl rfl] at htext
    simpa only [List.append_assoc] using htext
  printed_line := by
    have hline := notMem_of_mem_lines (List.mem_of_getElem? h.line)
    rw [hbody, List.append_assoc, List.append_assoc, List.mem_append, not_or] at hline
    rw [List.append_assoc, List.append_assoc, List.mem_append, not_or]
    exact ⟨(plain_gutter h.first).notMem (by decide), hline.2⟩
  under_line := ((plain_gap _).append (Layout.plain_replicate (by decide) _)).notMem (by decide)

/-- An issue at a token is shown with an underline as long as the token. The underline starts below
the token exactly if the text between the blanks in front and the token has no tab, or if the number
with its bar takes as many columns as these blanks, up to tab stops. -/
theorem underline_below_token_iff {content : Bytes} {i : Issue} {before token after : Bytes}
    (h : i.AtToken content.lines before token after) :
    ∃ lead gap, i.Shows content.lines (lead ++ token ++ after)
        (gap ++ List.replicate token.length 0x7e) ∧ 0x7e ∉ gap ∧
      (Layout.visualWidth gap = Layout.visualWidth lead ↔
        9 ∉ before.drop (leadingBlanks before).length ∨
          (i.numberWidth + 3) % 8 = Layout.visualWidth (leadingBlanks before) % 8) := by
  obtain ⟨body, hbody, hwidth⟩ := Layout.exists_body before
  refine ⟨i.gutter ++ body, _, h.shows hbody, Issue.tilde_notMem_gap _, ?_⟩
  have hdrop : (leadingBlanks before ++ body).drop (leadingBlanks before).length = body :=
    List.drop_left
  rw [← hbody] at hdrop
  have htab : 9 ∉ body ↔ ∀ g ∈ glyphs body, g.code? ≠ some 9 := by
    rw [tab_mem_iff]
    push Not
    rfl
  have hle := Layout.le_foldl_advance (glyphs body) (Layout.visualWidth (leadingBlanks before))
  rw [(Issue.plain_gap _).visualWidth_eq, (Issue.plain_gutter h.first).visualWidth_append,
    Issue.length_gap, Issue.length_gutter h.first, hdrop, htab, ← Layout.foldl_advance_eq_iff]
  omega

/-- An issue in the first line. -/
def Sample.inFirstLine (column : Int) : Issue :=
  { rule := "undeclared-symbol"
    category := "verification"
    filename := "t.mm"
    message := utf8 "m"
    severity := .error
    start := { line := 1, column }
    stop := { line := 1, column } }

/-- Four blanks are as wide as a number of one digit with its bar. -/
theorem aligned_after_blanks :
    (Sample.inFirstLine 8).AtToken (utf8 "    $v\tx").lines (utf8 "    $v\t") (utf8 "x") [] ∧
      ∃ lead gap, (Sample.inFirstLine 8).Shows (utf8 "    $v\tx").lines (lead ++ utf8 "x" ++ [])
        (gap ++ [0x7e]) ∧ Layout.visualWidth gap = Layout.visualWidth lead := by
  have h : (Sample.inFirstLine 8).AtToken (utf8 "    $v\tx").lines (utf8 "    $v\t")
      (utf8 "x") [] :=
    ⟨rfl, by decide, by decide, by decide, by decide, by decide,
      by simp [Printable, utf8, String.utf8EncodeChar], by simp⟩
  have hblanks : leadingBlanks (utf8 "    $v\t") = utf8 "    " := by
    rw [leadingBlanks, glyphs_of_ascii (by simp [utf8, String.utf8EncodeChar])]
    rfl
  obtain ⟨lead, gap, hshows, -, hiff⟩ := underline_below_token_iff h
  refine ⟨h, lead, gap, hshows, hiff.2 (.inr ?_)⟩
  rw [hblanks, Layout.visualWidth, glyphs_of_ascii (by simp [utf8, String.utf8EncodeChar])]
  rfl

/-- After a tab the underline is four columns to the right of its token. -/
theorem misaligned_after_tab :
    (Sample.inFirstLine 4).AtToken (utf8 "ab\tcd ef").lines (utf8 "ab\t") (utf8 "cd") (utf8 " ef") ∧
      (Sample.inFirstLine 4).Shows (utf8 "ab\tcd ef").lines (utf8 "1 | ab\tcd ef")
        (utf8 "  |         ~~") ∧
      Layout.visualWidth (utf8 "1 | ab\t") = 8 ∧ Layout.visualWidth (utf8 "  |         ") = 12 := by
  have h : (Sample.inFirstLine 4).AtToken (utf8 "ab\tcd ef").lines (utf8 "ab\t") (utf8 "cd")
      (utf8 " ef") :=
    ⟨rfl, by decide, by decide, by decide, by decide, by decide,
      by simp [Printable, utf8, String.utf8EncodeChar],
      by simp [utf8, String.utf8EncodeChar, isBlank]⟩
  have hblanks : leadingBlanks (utf8 "ab\t") = [] := by
    rw [leadingBlanks, glyphs_of_ascii (by simp [utf8, String.utf8EncodeChar])]
    rfl
  have hwidth : Layout.visualWidth (utf8 "ab\t") = 8 := by
    rw [Layout.visualWidth, glyphs_of_ascii (by simp [utf8, String.utf8EncodeChar])]
    rfl
  have hbody : utf8 "ab\t" = leadingBlanks (utf8 "ab\t") ++ utf8 "ab\t" := by
    rw [hblanks]
    rfl
  have hshows := h.shows hbody
  rw [hblanks, hwidth, Layout.visualWidth, glyphs_nil] at hshows
  refine ⟨h, hshows, ?_, ?_⟩
  · rw [Layout.visualWidth, glyphs_of_ascii (by simp [utf8, String.utf8EncodeChar])]
    rfl
  · rw [Layout.visualWidth, glyphs_of_ascii (by simp [utf8, String.utf8EncodeChar])]
    rfl

end Metamath
