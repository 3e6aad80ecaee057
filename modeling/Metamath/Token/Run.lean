import Metamath.Token.Lexer

/-!
# Runs of bytes

The bytes of a file fall into maximal runs without a separator (`runs`). They are the words of the
file that a tokenizer comes upon one after the other: it takes the first run and leaves the others,
unless the run has a byte that no word may have or touches a failing end of the file
(`Tokenizer.TakesWord`). So every token is a word of its file (`text_mem_words`).
-/

namespace Metamath

/-! ## Runs -/

/-- The place after some bytes. -/
def Cursor.advanceAll (c : Cursor) (bs : Bytes) : Cursor :=
  bs.foldl advance c

theorem Cursor.advanceAll_append (c : Cursor) (bs bs' : Bytes) :
    c.advanceAll (bs ++ bs') = (c.advanceAll bs).advanceAll bs' :=
  List.foldl_append

/-- A maximal run of bytes that are no separators. -/
structure Run where
  start : Cursor
  bytes : Bytes
  /-- Whether a separator follows the run. -/
  closed : Bool
deriving DecidableEq, Repr

/-- The run as a text. -/
def Run.text (r : Run) : String :=
  latin1 r.bytes

theorem length_dropWhile_le {α : Type _} (p : α → Bool) (l : List α) :
    (l.dropWhile p).length ≤ l.length :=
  (List.dropWhile_sublist p).length_le

/-- The runs of a text that begins at a place. -/
def runsFrom (c : Cursor) (bs : Bytes) : List Run :=
  match _h : bs.dropWhile isSeparator with
  | [] => []
  | b :: rest =>
    let start := c.advanceAll (bs.takeWhile isSeparator)
    let word := b :: rest.takeWhile (!isSeparator ·)
    let after := rest.dropWhile (!isSeparator ·)
    ⟨start, word, !after.isEmpty⟩ :: runsFrom (start.advanceAll word) after
termination_by bs.length
decreasing_by
  have h₁ := length_dropWhile_le isSeparator bs
  have h₂ := length_dropWhile_le (!isSeparator ·) rest
  rw [_h, List.length_cons] at h₁
  omega

/-- The runs of a file. -/
def runs (bs : Bytes) : List Run :=
  runsFrom {} bs

/-- The words of a file, those in comments included. -/
def Source.words (s : Source) : List String :=
  (runs s.bytes).map Run.text

/-- The first byte that no token may hold, and its place. -/
def firstInvalid (c : Cursor) : Bytes → Option (Cursor × UInt8)
  | [] => none
  | b :: bs => if isTokenByte b then firstInvalid (c.advance b) bs else some (c, b)

theorem runsFrom_of_nil {bs : Bytes} (c : Cursor) (h : bs.dropWhile isSeparator = []) :
    runsFrom c bs = [] := by
  rw [runsFrom]
  split <;> simp_all

theorem runsFrom_of_cons {bs rest : Bytes} {b : UInt8} (c : Cursor)
    (h : bs.dropWhile isSeparator = b :: rest) :
    runsFrom c bs =
      ⟨c.advanceAll (bs.takeWhile isSeparator), b :: rest.takeWhile (!isSeparator ·),
          !(rest.dropWhile (!isSeparator ·)).isEmpty⟩ ::
        runsFrom ((c.advanceAll (bs.takeWhile isSeparator)).advanceAll
          (b :: rest.takeWhile (!isSeparator ·))) (rest.dropWhile (!isSeparator ·)) := by
  rw [runsFrom]
  split
  · simp_all
  · simp_all

theorem head_dropWhile_eq_false {p : UInt8 → Bool} {bs rest : Bytes} {b : UInt8}
    (h : bs.dropWhile p = b :: rest) : p b = false := by
  have hhead := List.head?_dropWhile_not p bs
  rwa [h] at hhead

/-- Separators in front of a text only move it. -/
theorem runsFrom_append_of_separators {gap : Bytes} (hgap : ∀ b ∈ gap, isSeparator b) (c : Cursor)
    (bs : Bytes) : runsFrom c (gap ++ bs) = runsFrom (c.advanceAll gap) bs := by
  have hdrop : (gap ++ bs).dropWhile isSeparator = bs.dropWhile isSeparator :=
    List.dropWhile_append_of_pos hgap
  have htake : (gap ++ bs).takeWhile isSeparator = gap ++ bs.takeWhile isSeparator :=
    List.takeWhile_append_of_pos hgap
  cases hb : bs.dropWhile isSeparator with
  | nil => rw [runsFrom_of_nil _ hb, runsFrom_of_nil _ (hdrop.trans hb)]
  | cons b rest =>
    rw [runsFrom_of_cons _ hb, runsFrom_of_cons _ (hdrop.trans hb), htake, Cursor.advanceAll_append]

/-- How a text begins that has a first run. -/
structure Run.Leads (r : Run) (c : Cursor) (bs gap after : Bytes) : Prop where
  text : bs = gap ++ (r.bytes ++ after)
  gap_separators : ∀ b ∈ gap, isSeparator b
  word_ne_nil : r.bytes ≠ []
  word_bytes : ∀ b ∈ r.bytes, isSeparator b = false
  after_separator : ∀ b ∈ after.head?, isSeparator b
  start : r.start = c.advanceAll gap
  closed : r.closed = !after.isEmpty

theorem exists_leads {c : Cursor} {bs : Bytes} {r : Run} {rs : List Run}
    (h : runsFrom c bs = r :: rs) :
    ∃ gap after, r.Leads c bs gap after ∧ runsFrom (r.start.advanceAll r.bytes) after = rs := by
  cases hb : bs.dropWhile isSeparator with
  | nil =>
    rw [runsFrom_of_nil c hb] at h
    cases h
  | cons b rest =>
    rw [runsFrom_of_cons c hb] at h
    obtain ⟨rfl, rfl⟩ := List.cons.inj h
    refine ⟨bs.takeWhile isSeparator, rest.dropWhile (!isSeparator ·), ⟨?_, ?_, ?_, ?_, ?_, rfl, rfl⟩,
      rfl⟩
    · rw [List.cons_append, List.takeWhile_append_dropWhile, ← hb, List.takeWhile_append_dropWhile]
    · exact fun b' hb' => List.all_eq_true.1 List.all_takeWhile b' hb'
    · exact List.cons_ne_nil _ _
    · intro b' hb'
      rcases List.mem_cons.1 hb' with rfl | hb'
      · exact head_dropWhile_eq_false hb
      · simpa using List.all_eq_true.1 List.all_takeWhile b' hb'
    · intro b' hb'
      obtain ⟨rest', hrest'⟩ := List.head?_eq_some_iff.1 hb'
      simpa using head_dropWhile_eq_false hrest'

/-! ## Byte by byte -/

namespace Tokenizer

section Step

variable {file : String} {last : Option UInt8} {rest : Bytes} {failure : Option Failure}
  {c : Cursor} {b : UInt8} {word : Bytes}

theorem skipSeparators_nil :
    skipSeparators ⟨file, ⟨last, [], failure⟩, c⟩ = .error failure := by
  rw [skipSeparators]
  rfl

theorem skipSeparators_separator (hb : isSeparator b) :
    skipSeparators ⟨file, ⟨last, b :: rest, failure⟩, c⟩ =
      skipSeparators ⟨file, ⟨some b, rest, failure⟩, c.advance b⟩ := by
  rw [skipSeparators]
  exact if_pos hb

/-- The byte that is read to see that it is no separator can be put back. -/
theorem skipSeparators_other (hb : isSeparator b = false) :
    skipSeparators ⟨file, ⟨last, b :: rest, failure⟩, c⟩ =
      .ok ⟨file, ⟨none, b :: rest, failure⟩, c⟩ := by
  rw [skipSeparators]
  exact if_neg (by simp [hb])

theorem readWord_nil :
    readWord ⟨file, ⟨last, [], none⟩, c⟩ word = .ok (word.reverse, ⟨file, ⟨last, [], none⟩, c⟩) := by
  rw [readWord]
  rfl

theorem readWord_failing {f : Failure} :
    readWord ⟨file, ⟨last, [], some f⟩, c⟩ word = .error (some f) := by
  rw [readWord]
  rfl

theorem readWord_separator (hb : isSeparator b) :
    readWord ⟨file, ⟨last, b :: rest, failure⟩, c⟩ word =
      .ok (word.reverse, ⟨file, ⟨some b, rest, failure⟩, c.advance b⟩) := by
  rw [readWord]
  exact if_pos hb

theorem readWord_invalid (hb : isSeparator b = false) (hv : isTokenByte b = false) :
    readWord ⟨file, ⟨last, b :: rest, failure⟩, c⟩ word =
      .error (some (lexFailure file c (.invalidCharacter b))) := by
  rw [readWord]
  exact (if_neg (by simp [hb])).trans (if_pos (by simp [hv]))

theorem readWord_valid (hb : isSeparator b = false) (hv : isTokenByte b) :
    readWord ⟨file, ⟨last, b :: rest, failure⟩, c⟩ word =
      readWord ⟨file, ⟨some b, rest, failure⟩, c.advance b⟩ (b :: word) := by
  rw [readWord]
  exact (if_neg (by simp [hb])).trans (if_neg (by simp [hv]))

/-! ## Word by word -/

theorem skipSeparators_append {gap : Bytes} (hgap : ∀ b ∈ gap, isSeparator b) (file : String)
    (last : Option UInt8) (rest : Bytes) (failure : Option Failure) (c : Cursor) :
    ∃ last', skipSeparators ⟨file, ⟨last, gap ++ rest, failure⟩, c⟩ =
      skipSeparators ⟨file, ⟨last', rest, failure⟩, c.advanceAll gap⟩ := by
  induction gap generalizing last c with
  | nil => exact ⟨last, rfl⟩
  | cons b gap ih =>
    obtain ⟨hb, hgap⟩ := List.forall_mem_cons.1 hgap
    rw [List.cons_append, skipSeparators_separator hb]
    exact ih hgap _ _

/-- A word is read up to its first byte that no word may have. -/
theorem readWord_append_of_invalid {bs after : Bytes} (hbs : ∀ b ∈ bs, isSeparator b = false)
    {c' : Cursor} (h : firstInvalid c bs = some (c', b)) :
    readWord ⟨file, ⟨last, bs ++ after, failure⟩, c⟩ word =
      .error (some (lexFailure file c' (.invalidCharacter b))) := by
  induction bs generalizing last c word with
  | nil => cases h
  | cons b' bs ih =>
    obtain ⟨hb', hbs⟩ := List.forall_mem_cons.1 hbs
    rw [firstInvalid] at h
    rw [List.cons_append]
    split at h
    · rename_i hv
      rw [readWord_valid hb' hv]
      exact ih hbs h
    · rename_i hv
      cases h
      exact readWord_invalid hb' (by simpa using hv)

theorem readWord_append_of_valid {bs after : Bytes} (hbs : ∀ b ∈ bs, isSeparator b = false)
    (h : firstInvalid c bs = none) :
    ∃ last', readWord ⟨file, ⟨last, bs ++ after, failure⟩, c⟩ word =
      readWord ⟨file, ⟨last', after, failure⟩, c.advanceAll bs⟩ (bs.reverse ++ word) := by
  induction bs generalizing last c word with
  | nil => exact ⟨last, rfl⟩
  | cons b bs ih =>
    obtain ⟨hb, hbs⟩ := List.forall_mem_cons.1 hbs
    rw [firstInvalid] at h
    split at h
    · rename_i hv
      rw [List.cons_append, readWord_valid hb hv, List.reverse_cons, List.append_assoc]
      exact ih hbs h
    · cases h

end Step

/-- The runs that are left to read. -/
def runs (t : Tokenizer) : List Run :=
  runsFrom t.cursor t.reader.rest

variable {t t' : Tokenizer} {r : Run} {rs : List Run}

theorem raw_of_runs_nil (h : t.runs = []) : t.raw = .error t.reader.failure := by
  obtain ⟨file, ⟨last, bs, failure⟩, c⟩ := t
  have hdrop : bs.dropWhile isSeparator = [] := by
    cases hb : bs.dropWhile isSeparator with
    | nil => rfl
    | cons b rest =>
      rw [runs, runsFrom_of_cons _ hb] at h
      cases h
  have hgap : ∀ b ∈ bs, isSeparator b := by
    have hbs := List.takeWhile_append_dropWhile (p := isSeparator) (l := bs)
    rw [hdrop, List.append_nil] at hbs
    rw [← hbs]
    exact fun b hb => List.all_eq_true.1 List.all_takeWhile b hb
  obtain ⟨last', hskip⟩ := skipSeparators_append hgap file last [] failure c
  rw [List.append_nil, skipSeparators_nil] at hskip
  rw [raw, hskip]

/-- A tokenizer passes the separators in front of a run and then reads the run. -/
theorem exists_raw_eq (h : t.runs = r :: rs) :
    ∃ gap after, r.Leads t.cursor t.reader.rest gap after ∧
      runsFrom (r.start.advanceAll r.bytes) after = rs ∧
      t.raw = (readWord ⟨t.file, ⟨none, r.bytes ++ after, t.reader.failure⟩, r.start⟩ []).map
        fun (word, t') => (⟨r.start, word⟩, t') := by
  obtain ⟨gap, after, hlead, hrs⟩ := exists_leads h
  obtain ⟨file, ⟨last, bs, failure⟩, c⟩ := t
  refine ⟨gap, after, hlead, hrs, ?_⟩
  obtain ⟨b, word, hword⟩ := List.exists_cons_of_ne_nil hlead.word_ne_nil
  have hb : isSeparator b = false := hlead.word_bytes b (hword ▸ List.mem_cons_self)
  obtain rfl : bs = gap ++ (r.bytes ++ after) := hlead.text
  obtain ⟨last', hskip⟩ :=
    skipSeparators_append hlead.gap_separators file last (r.bytes ++ after) failure c
  rw [raw, hskip, hlead.start, hword, List.cons_append, skipSeparators_other hb]

/-- What a tokenizer gives for the runs that are left. A run that touches a failing end of the file is
lost. -/
inductive TakesWord (t : Tokenizer) : Except (Option Failure) (Lexeme × Tokenizer) → Prop
  | ended (h : t.runs = []) : TakesWord t (.error t.reader.failure)
  | invalid {r : Run} {rs : List Run} {c : Cursor} {b : UInt8} (h : t.runs = r :: rs)
      (hb : firstInvalid r.start r.bytes = some (c, b)) :
      TakesWord t (.error (some (lexFailure t.file c (.invalidCharacter b))))
  | lost {r : Run} {rs : List Run} {f : Failure} (h : t.runs = r :: rs)
      (hb : firstInvalid r.start r.bytes = none) (hc : r.closed = false)
      (hf : t.reader.failure = some f) : TakesWord t (.error (some f))
  | taken {r : Run} {t' : Tokenizer} (h : t.runs = r :: t'.runs)
      (hb : firstInvalid r.start r.bytes = none) (hc : r.closed = false → t.reader.failure = none)
      (hfile : t'.file = t.file) (hfailure : t'.reader.failure = t.reader.failure) :
      TakesWord t (.ok (⟨r.start, r.bytes⟩, t'))

theorem takesWord_raw (t : Tokenizer) : t.TakesWord t.raw := by
  cases hr : t.runs with
  | nil =>
    rw [raw_of_runs_nil hr]
    exact .ended hr
  | cons r rs =>
    obtain ⟨gap, after, hlead, rfl, hraw⟩ := exists_raw_eq hr
    rw [hraw]
    cases hb : firstInvalid r.start r.bytes with
    | some fault =>
      obtain ⟨c, b⟩ := fault
      rw [readWord_append_of_invalid hlead.word_bytes hb]
      exact .invalid hr hb
    | none =>
      obtain ⟨last, hread⟩ := readWord_append_of_valid hlead.word_bytes hb
      have hword : (r.bytes.reverse ++ []).reverse = r.bytes := by simp
      rw [hread]
      cases after with
      | nil =>
        cases hf : t.reader.failure with
        | some f =>
          rw [readWord_failing]
          exact .lost hr hb hlead.closed hf
        | none =>
          rw [readWord_nil, hword]
          exact .taken hr hb (fun _ => hf) rfl hf.symm
      | cons b after =>
        have hsep : isSeparator b := hlead.after_separator b rfl
        rw [readWord_separator hsep, hword]
        refine .taken (hr.trans (congrArg (r :: ·) ?_)) hb (fun hc => ?_) rfl rfl
        · exact runsFrom_append_of_separators (List.forall_mem_singleton.2 hsep) _ after
        · rw [hlead.closed] at hc
          cases hc

/-! ## Tokens are words -/

theorem runs_of_skipComment {opening : Cursor} (h : t.skipComment opening = .ok t') :
    t'.runs ⊆ t.runs := by
  fun_induction skipComment t opening with
  | case3 t w t₁ hraw =>
    cases h
    have htakes := hraw ▸ t.takesWord_raw
    cases htakes with
    | taken hr => exact hr ▸ List.subset_cons_self _ _
  | case6 t w t₁ hraw _ _ _ ih =>
    have htakes := hraw ▸ t.takesWord_raw
    cases htakes with
    | taken hr => exact hr ▸ List.subset_cons_of_subset _ (ih h)
  | _ => cases h

theorem mem_runs_of_next {tok : Token} (h : t.next = .ok (tok, t')) :
    (∃ r ∈ t.runs, r.text = tok.text) ∧ t'.runs ⊆ t.runs := by
  fun_induction next t with
  | case3 t w t₁ hraw _ t₂ hc ih =>
    have htakes := hraw ▸ t.takesWord_raw
    cases htakes with
    | @taken r _ hr =>
      have hsub : t₂.runs ⊆ t.runs := hr ▸ List.subset_cons_of_subset r (runs_of_skipComment hc)
      obtain ⟨⟨r', hr', htext⟩, hrs⟩ := ih h
      exact ⟨⟨r', hsub hr', htext⟩, List.Subset.trans hrs hsub⟩
  | case5 t w t₁ hraw =>
    cases h
    have htakes := hraw ▸ t.takesWord_raw
    cases htakes with
    | @taken r _ hr => exact hr ▸ ⟨⟨r, List.mem_cons_self, rfl⟩, List.subset_cons_self _ _⟩
  | _ => cases h

theorem text_mem_of_mem_stream {tok : Token} (h : tok ∈ t.stream.tokens) :
    tok.text ∈ t.runs.map Run.text := by
  fun_induction stream t with
  | case1 => cases h
  | case2 t first t₁ hnext ih =>
    obtain ⟨⟨r, hr, htext⟩, hsub⟩ := mem_runs_of_next hnext
    rcases List.mem_cons.1 h with rfl | h
    · exact List.mem_map.2 ⟨r, hr, htext⟩
    · exact List.map_subset _ hsub (ih h)

end Tokenizer

/-- Every token of a file is one of its words. -/
theorem text_mem_words {file : String} {s : Source} {t : Token} (h : t ∈ (s.lex file).tokens) :
    t.text ∈ s.words :=
  Tokenizer.text_mem_of_mem_stream h

end Metamath
