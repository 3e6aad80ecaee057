import Metamath.Token.Run

/-!
# Runs scanned from the left

`scan` is what becomes of the runs of a file, one after the other, outside and inside of comments. A
tokenizer that reads the file byte by byte and asks for one token at a time comes to the same
(`Source.lex_eq_scan`): each of its requests is the scan of the runs that it passes.
-/

namespace Metamath

/-- The tokens of a list of runs. `comment` is the place of the `$(` that is still open, and
`failure` is what stands at the end of the file. A run that touches a failing end is lost. -/
def scan (file : String) (failure : Option Failure) : Option Cursor → List Run → Stream
  | none, [] => ⟨[], failure⟩
  | some opening, [] => .fail (failure.getD (lexFailure file opening .unclosedComment))
  | comment, r :: rs =>
    match firstInvalid r.start r.bytes with
    | some (c, b) => .fail (lexFailure file c (.invalidCharacter b))
    | none =>
      if !r.closed && failure.isSome then ⟨[], failure⟩
      else match comment with
        | none =>
          if r.bytes = commentOpening then scan file failure (some r.start) rs
          else if holdsOpening r.bytes || holdsClosing r.bytes then
            .fail (lexFailure file r.start (.delimiterOutsideComment r.text))
          else (scan file failure none rs).cons ⟨r.text, r.start.position file⟩
        | some opening =>
          if r.bytes = commentClosing then scan file failure none rs
          else if holdsOpening r.bytes then .fail (lexFailure file r.start .openingInComment)
          else if holdsClosing r.bytes then .fail (lexFailure file r.start .closingInComment)
          else scan file failure (some opening) rs

namespace Tokenizer

/-- The tokens of the runs that are left to read. -/
def scanned (t : Tokenizer) (comment : Option Cursor) : Stream :=
  scan t.file t.reader.failure comment t.runs

variable {t t' : Tokenizer} {w : Lexeme} {opening : Cursor}

/-! ## One word -/

theorem scanned_of_raw_error {e : Option Failure} (h : t.raw = .error e) :
    t.scanned none = ⟨[], e⟩ ∧ ∀ opening,
      t.scanned (some opening) = .fail (e.getD (lexFailure t.file opening .unclosedComment)) := by
  have htakes := h ▸ t.takesWord_raw
  unfold scanned
  cases htakes with
  | ended hr => simp [hr, scan]
  | invalid hr hb => simp [hr, scan, hb, Stream.fail]
  | lost hr hb hc hf => simp [hr, scan, hb, hc, hf, Stream.fail]

theorem scanned_of_raw_ok (h : t.raw = .ok (w, t')) :
    (t.scanned none =
      if w.bytes = commentOpening then t'.scanned (some w.start)
      else if holdsOpening w.bytes || holdsClosing w.bytes then
        .fail (lexFailure t.file w.start (.delimiterOutsideComment (latin1 w.bytes)))
      else (t'.scanned none).cons ⟨latin1 w.bytes, w.start.position t.file⟩) ∧
    ∀ opening, t.scanned (some opening) =
      if w.bytes = commentClosing then t'.scanned none
      else if holdsOpening w.bytes then .fail (lexFailure t.file w.start .openingInComment)
      else if holdsClosing w.bytes then .fail (lexFailure t.file w.start .closingInComment)
      else t'.scanned (some opening) := by
  have htakes := h ▸ t.takesWord_raw
  unfold scanned
  cases htakes with
  | @taken r _ hr hb hc hfile hfailure =>
    have hgo : (!r.closed && t.reader.failure.isSome) = false := by
      cases hclosed : r.closed with
      | true => rfl
      | false => simp [hc hclosed]
    rw [hr, hfile, hfailure]
    simp only [scan, hb, hgo]
    exact ⟨rfl, fun _ => rfl⟩

/-! ## One request -/

theorem scanned_of_skipComment_error {e : Option Failure} (h : t.skipComment opening = .error e) :
    t.scanned (some opening) = ⟨[], e⟩ := by
  fun_induction skipComment t opening with
  | case1 t hraw | case2 t f hraw =>
    cases h
    exact (scanned_of_raw_error hraw).2 _
  | case3 => cases h
  | case4 t w t₁ hraw hclose ho =>
    cases h
    rw [(scanned_of_raw_ok hraw).2, if_neg hclose, if_pos ho]
    rfl
  | case5 t w t₁ hraw hclose ho hc =>
    cases h
    rw [(scanned_of_raw_ok hraw).2, if_neg hclose, if_neg ho, if_pos hc]
    rfl
  | case6 t w t₁ hraw hclose ho hc ih =>
    rw [(scanned_of_raw_ok hraw).2, if_neg hclose, if_neg ho, if_neg hc, ih h]

theorem scanned_of_skipComment_ok (h : t.skipComment opening = .ok t') :
    t.scanned (some opening) = t'.scanned none := by
  fun_induction skipComment t opening with
  | case3 t w t₁ hraw hclose =>
    cases h
    rw [(scanned_of_raw_ok hraw).2, if_pos hclose]
  | case6 t w t₁ hraw hclose ho hc ih =>
    rw [(scanned_of_raw_ok hraw).2, if_neg hclose, if_neg ho, if_neg hc, ih h]
  | _ => cases h

theorem scanned_of_next_error {e : Option Failure} (h : t.next = .error e) :
    t.scanned none = ⟨[], e⟩ := by
  fun_induction next t with
  | case1 t e' hraw =>
    cases h
    exact (scanned_of_raw_error hraw).1
  | case2 t w t₁ hraw hopen e' hskip =>
    cases h
    rw [(scanned_of_raw_ok hraw).1, if_pos hopen, scanned_of_skipComment_error hskip]
  | case3 t w t₁ hraw hopen t₂ hskip ih =>
    rw [(scanned_of_raw_ok hraw).1, if_pos hopen, scanned_of_skipComment_ok hskip, ih h]
  | case4 t w t₁ hraw hopen hd =>
    cases h
    rw [(scanned_of_raw_ok hraw).1, if_neg hopen, if_pos hd]
    rfl
  | case5 => cases h

theorem scanned_of_next_ok {tok : Token} (h : t.next = .ok (tok, t')) :
    t.scanned none = (t'.scanned none).cons tok := by
  fun_induction next t with
  | case3 t w t₁ hraw hopen t₂ hskip ih =>
    rw [(scanned_of_raw_ok hraw).1, if_pos hopen, scanned_of_skipComment_ok hskip, ih h]
  | case5 t w t₁ hraw hopen hd =>
    cases h
    rw [(scanned_of_raw_ok hraw).1, if_neg hopen, if_neg hd]
  | _ => cases h

/-! ## All requests -/

theorem stream_eq_scanned (t : Tokenizer) : t.stream = t.scanned none := by
  fun_induction stream t with
  | case1 t e hnext => exact (scanned_of_next_error hnext).symm
  | case2 t tok t₁ hnext ih => rw [ih, scanned_of_next_ok hnext]

end Tokenizer

/-- Asking for one token after the other gives what the runs of the file give. -/
theorem Source.lex_eq_scan (file : String) (s : Source) :
    s.lex file = scan file s.failure none (runs s.bytes) :=
  (s.tokenizer file).stream_eq_scanned

end Metamath
