import Metamath.Proofs.Token.Words

/-!
# What the words of a text are

`Scanned` says what becomes of the words of a text, taken from left to right: the rule for a word
outside a comment, for one inside a comment, and for the end of the text. Together with the division of
a text into words it is all there is to know about reading a file: `lex_iff_scanned` says that a file
has the tokens, and the fault if any, that these rules give, and that they always give something.
-/

namespace Metamath

/-! ## The rules -/

/-- The syntax error after some bytes of a file. -/
def syntaxError (file : String) (before : Bytes) (e : LexError) : Failure :=
  .diagnostic { cause := .lex e, pos := .after file before }

/-- `Scanned file comment ws out`: the words give the tokens and the fault of `out`. In a comment,
`comment` is what stands before its `$(`. -/
inductive Scanned (file : String) : Option Bytes → List PlacedWord → Stream → Prop
  | ended : Scanned file none [] ⟨[], none⟩
  | unclosed {opening : Bytes} :
      Scanned file (some opening) [] (.fail (syntaxError file opening .unclosedComment))
  | invalid {comment : Option Bytes} {before good bad : Bytes} {b : UInt8} {ws : List PlacedWord}
      (hgood : Printable good) (hb : ¬ (0x21 ≤ b ∧ b ≤ 0x7e)) :
      Scanned file comment (⟨before, good ++ b :: bad⟩ :: ws)
        (.fail (syntaxError file (before ++ good) (.invalidCharacter b)))
  | opened {before : Bytes} {ws : List PlacedWord} {out : Stream}
      (rest : Scanned file (some before) ws out) :
      Scanned file none (⟨before, commentOpening⟩ :: ws) out
  | glued {before bytes : Bytes} {ws : List PlacedWord} (hp : Printable bytes)
      (hne : bytes ≠ commentOpening) (h : commentOpening <:+: bytes ∨ commentClosing <:+: bytes) :
      Scanned file none (⟨before, bytes⟩ :: ws)
        (.fail (syntaxError file before (.delimiterOutsideComment (latin1 bytes))))
  | token {before bytes : Bytes} {ws : List PlacedWord} {out : Stream} (hp : Printable bytes)
      (ho : ¬ commentOpening <:+: bytes) (hc : ¬ commentClosing <:+: bytes)
      (rest : Scanned file none ws out) :
      Scanned file none (⟨before, bytes⟩ :: ws) (out.cons ⟨latin1 bytes, .after file before⟩)
  | closed {opening before : Bytes} {ws : List PlacedWord} {out : Stream}
      (rest : Scanned file none ws out) :
      Scanned file (some opening) (⟨before, commentClosing⟩ :: ws) out
  | nested {opening before bytes : Bytes} {ws : List PlacedWord} (hp : Printable bytes)
      (ho : commentOpening <:+: bytes) :
      Scanned file (some opening) (⟨before, bytes⟩ :: ws)
        (.fail (syntaxError file before .openingInComment))
  | gluedClosing {opening before bytes : Bytes} {ws : List PlacedWord} (hp : Printable bytes)
      (hne : bytes ≠ commentClosing) (ho : ¬ commentOpening <:+: bytes)
      (hc : commentClosing <:+: bytes) :
      Scanned file (some opening) (⟨before, bytes⟩ :: ws)
        (.fail (syntaxError file before .closingInComment))
  | dropped {opening before bytes : Bytes} {ws : List PlacedWord} {out : Stream}
      (hp : Printable bytes) (ho : ¬ commentOpening <:+: bytes) (hc : ¬ commentClosing <:+: bytes)
      (rest : Scanned file (some opening) ws out) :
      Scanned file (some opening) (⟨before, bytes⟩ :: ws) out

/-- There is a rule for every word. -/
theorem exists_scanned (file : String) (comment : Option Bytes) (ws : List PlacedWord) :
    ∃ out, Scanned file comment ws out := by
  induction ws generalizing comment with
  | nil =>
    cases comment with
    | none => exact ⟨_, .ended⟩
    | some opening => exact ⟨_, .unclosed⟩
  | cons w ws ih =>
    obtain ⟨before, bytes⟩ := w
    obtain hp | ⟨good, b, bad, rfl, hgood, hb⟩ := printable_or_invalid bytes
    · cases comment with
      | none =>
        by_cases hopen : bytes = commentOpening
        · obtain ⟨out, h⟩ := ih (some before)
          rw [hopen]
          exact ⟨out, .opened h⟩
        · by_cases hd : commentOpening <:+: bytes ∨ commentClosing <:+: bytes
          · exact ⟨_, .glued hp hopen hd⟩
          · obtain ⟨out, h⟩ := ih none
            rw [not_or] at hd
            exact ⟨_, .token hp hd.1 hd.2 h⟩
      | some opening =>
        by_cases hclose : bytes = commentClosing
        · obtain ⟨out, h⟩ := ih none
          rw [hclose]
          exact ⟨out, .closed h⟩
        · by_cases ho : commentOpening <:+: bytes
          · exact ⟨_, .nested hp ho⟩
          · by_cases hc : commentClosing <:+: bytes
            · exact ⟨_, .gluedClosing hp hclose ho hc⟩
            · obtain ⟨out, h⟩ := ih (some opening)
              exact ⟨out, .dropped hp ho hc h⟩
    · exact ⟨_, .invalid hgood hb⟩

/-! ## Runs follow the rules -/

theorem hasPair_iff {a b : UInt8} {bs : Bytes} : hasPair a b bs ↔ [a, b] <:+: bs := by
  fun_induction hasPair a b bs with
  | case1 x y rest ih =>
    rw [Bool.or_eq_true, Bool.and_eq_true, beq_iff_eq, beq_iff_eq, ih, List.infix_cons_iff (a := x),
      List.cons_prefix_cons, List.cons_prefix_cons, eq_comm (a := x), eq_comm (a := y)]
    simp
  | case2 bs hbs =>
    refine iff_of_false (by simp) fun h => ?_
    have hlen := h.length_le
    match bs with
    | [] => simp at hlen
    | [x] => simp at hlen
    | x :: y :: rest => exact hbs x y rest rfl

theorem lexFailure_after (file : String) (before : Bytes) (e : LexError) :
    lexFailure file (.after before) e = syntaxError file before e := by
  rw [lexFailure, syntaxError, Cursor.position_after]

section Scan

variable {file : String} {bytes : Bytes} (start : Cursor) (closed : Bool) (rs : List Run)

theorem scan_of_invalid (comment : Option Cursor) {c : Cursor} {b : UInt8}
    (h : firstInvalid start bytes = some (c, b)) :
    scan file none comment (⟨start, bytes, closed⟩ :: rs) =
      .fail (lexFailure file c (.invalidCharacter b)) := by
  cases comment <;> simp [scan, h]

theorem scan_outside (h : Printable bytes) :
    scan file none none (⟨start, bytes, closed⟩ :: rs) =
      if bytes = commentOpening then scan file none (some start) rs
      else if commentOpening <:+: bytes ∨ commentClosing <:+: bytes then
        .fail (lexFailure file start (.delimiterOutsideComment (latin1 bytes)))
      else (scan file none none rs).cons ⟨latin1 bytes, start.position file⟩ := by
  simp only [scan, firstInvalid_of_printable h, holdsOpening, holdsClosing, Bool.or_eq_true,
    hasPair_iff, Option.isSome_none, Bool.and_false]
  rfl

theorem scan_inside (h : Printable bytes) (opening : Cursor) :
    scan file none (some opening) (⟨start, bytes, closed⟩ :: rs) =
      if bytes = commentClosing then scan file none none rs
      else if commentOpening <:+: bytes then .fail (lexFailure file start .openingInComment)
      else if commentClosing <:+: bytes then .fail (lexFailure file start .closingInComment)
      else scan file none (some opening) rs := by
  simp only [scan, firstInvalid_of_printable h, holdsOpening, holdsClosing, hasPair_iff,
    Option.isSome_none, Bool.and_false]
  rfl

end Scan

theorem printable_commentOpening : Printable commentOpening := by
  simp [Printable, commentOpening]

theorem printable_commentClosing : Printable commentClosing := by
  simp [Printable, commentClosing]

theorem ne_of_not_within {bs delimiter : Bytes} (h : ¬ delimiter <:+: bs) : bs ≠ delimiter := by
  rintro rfl
  exact h List.infix_rfl

theorem exists_of_forall₂_isAt {rs : List Run} {before bytes : Bytes} {ws : List PlacedWord}
    (h : List.Forall₂ Run.IsAt rs (⟨before, bytes⟩ :: ws)) :
    ∃ closed rs', rs = ⟨.after before, bytes, closed⟩ :: rs' ∧ List.Forall₂ Run.IsAt rs' ws := by
  obtain _ | @⟨⟨start, bytes', closed⟩, _, rs, _, hat, hrs⟩ := h
  obtain ⟨rfl, rfl⟩ : start = .after before ∧ bytes' = bytes := hat
  exact ⟨closed, rs, rfl, hrs⟩

/-- The rules give what scanning the runs gives. -/
theorem Scanned.scan_eq {file : String} {comment : Option Bytes} {ws : List PlacedWord}
    {out : Stream} (h : Scanned file comment ws out) {rs : List Run}
    (hrs : List.Forall₂ Run.IsAt rs ws) : scan file none (comment.map .after) rs = out := by
  induction h generalizing rs with
  | ended =>
    cases hrs
    rfl
  | unclosed =>
    cases hrs
    rw [← lexFailure_after]
    rfl
  | invalid hgood hb =>
    obtain ⟨closed, rs, rfl, -⟩ := exists_of_forall₂_isAt hrs
    rw [scan_of_invalid _ _ _ _ (firstInvalid_append hgood hb _ _), ← Cursor.after_append,
      lexFailure_after]
  | opened rest ih =>
    obtain ⟨closed, rs, rfl, hrs'⟩ := exists_of_forall₂_isAt hrs
    rw [Option.map_none, scan_outside _ _ _ printable_commentOpening, if_pos rfl]
    exact ih hrs'
  | glued hp hne h =>
    obtain ⟨closed, rs, rfl, -⟩ := exists_of_forall₂_isAt hrs
    rw [Option.map_none, scan_outside _ _ _ hp, if_neg hne, if_pos h, lexFailure_after]
  | token hp ho hc rest ih =>
    obtain ⟨closed, rs, rfl, hrs'⟩ := exists_of_forall₂_isAt hrs
    rw [Option.map_none, scan_outside _ _ _ hp, if_neg (ne_of_not_within ho),
      if_neg (not_or.2 ⟨ho, hc⟩), Cursor.position_after, ← ih hrs']
    rfl
  | closed rest ih =>
    obtain ⟨closed, rs, rfl, hrs'⟩ := exists_of_forall₂_isAt hrs
    rw [Option.map_some, scan_inside _ _ _ printable_commentClosing, if_pos rfl]
    exact ih hrs'
  | @nested opening before bytes ws hp ho =>
    obtain ⟨closed, rs, rfl, -⟩ := exists_of_forall₂_isAt hrs
    have hne : bytes ≠ commentClosing := by
      rintro rfl
      exact absurd ho (by decide)
    rw [Option.map_some, scan_inside _ _ _ hp, if_neg hne, if_pos ho, lexFailure_after]
  | gluedClosing hp hne ho hc =>
    obtain ⟨closed, rs, rfl, -⟩ := exists_of_forall₂_isAt hrs
    rw [Option.map_some, scan_inside _ _ _ hp, if_neg hne, if_neg ho, if_pos hc, lexFailure_after]
  | dropped hp ho hc rest ih =>
    obtain ⟨closed, rs, rfl, hrs'⟩ := exists_of_forall₂_isAt hrs
    rw [Option.map_some, scan_inside _ _ _ hp, if_neg (ne_of_not_within hc), if_neg ho, if_neg hc]
    exact ih hrs'

/-- A file has the tokens and the fault that its words give by the rules. -/
theorem lex_iff_scanned (file : String) (bs : Bytes) (out : Stream) :
    (∃ ws, Divides [] bs ws ∧ Scanned file none ws out) ↔ out = Source.lex file ⟨bs, none⟩ := by
  have hlex : ∀ ws out, Divides [] bs ws → Scanned file none ws out →
      Source.lex file ⟨bs, none⟩ = out := by
    intro ws out hws hout
    rw [Source.lex_eq_scan]
    exact hout.scan_eq hws.runs
  constructor
  · rintro ⟨ws, hws, hout⟩
    exact (hlex ws out hws hout).symm
  · rintro rfl
    obtain ⟨ws, hws⟩ := exists_divides [] bs
    obtain ⟨out, hout⟩ := exists_scanned file none ws
    rw [hlex ws out hws hout]
    exact ⟨ws, hws, hout⟩

end Metamath
