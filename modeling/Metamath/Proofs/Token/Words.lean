import Mathlib.Data.List.DropRight
import Mathlib.Data.List.Forall2
import Metamath.Proofs.Token.Origin

/-!
# Words and their places

A text is divided into words by white space (`Divides`). There is one way to do that, and the runs of
a text are its words (`exists_divides`, `Divides.runs`). `Position.after` is the position after some
bytes of a file, by counting; it is where a cursor stands that has moved over them.
-/

namespace Metamath

/-! ## Positions -/

/-- The position after some bytes of a file. The line feeds among them are counted, and the bytes
after the last line feed. -/
def Position.after (file : String) (before : Bytes) : Position where
  filename := file
  offset := before.length
  line := 1 + before.count 10
  column := 1 + (before.rtakeWhile (· != 10)).length

/-- The place after some bytes from the start of a file. -/
def Cursor.after (before : Bytes) : Cursor :=
  advanceAll {} before

theorem Cursor.after_append (before bs : Bytes) :
    after (before ++ bs) = (after before).advanceAll bs :=
  advanceAll_append _ _ _

theorem Cursor.after_eq (before : Bytes) :
    after before =
      ⟨before.length, 1 + before.count 10, 1 + (before.rtakeWhile (· != 10)).length⟩ := by
  induction before using List.reverseRecOn with
  | nil => rfl
  | append_singleton bs b ih =>
    have hstep : after (bs ++ [b]) = (after bs).advance b := after_append bs [b]
    rw [hstep, ih, advance]
    by_cases hb : b = 10
    · simp [hb, Nat.add_assoc]
    · simp [hb, Nat.add_assoc]

theorem Cursor.position_after (file : String) (before : Bytes) :
    (after before).position file = .after file before := by
  rw [after_eq]
  simp [position, Position.after]

/-! ## Words -/

/-- Space, tab, line feed, form feed and carriage return. -/
def whiteSpace : Bytes :=
  [0x20, 0x09, 0x0a, 0x0c, 0x0d]

theorem isSeparator_iff {b : UInt8} : isSeparator b ↔ b ∈ whiteSpace := by
  simp only [isSeparator, whiteSpace, Bool.or_eq_true, beq_iff_eq, List.mem_cons, List.not_mem_nil]
  grind

/-- A word of a text and the bytes before it. -/
structure PlacedWord where
  before : Bytes
  bytes : Bytes

/-- `Divides before text ws`: the text that follows some bytes has just the words `ws`. A word has no
white space in it, and white space or an end of the text on both sides. -/
inductive Divides : Bytes → Bytes → List PlacedWord → Prop
  | ended {before gap : Bytes} (hgap : gap ⊆ whiteSpace) : Divides before gap []
  | word {before gap word rest : Bytes} {ws : List PlacedWord} (hgap : gap ⊆ whiteSpace)
      (hne : word ≠ []) (hword : word.Disjoint whiteSpace)
      (hrest : ∀ b ∈ rest.head?, b ∈ whiteSpace)
      (others : Divides (before ++ gap ++ word) rest ws) :
      Divides before (gap ++ (word ++ rest)) (⟨before ++ gap, word⟩ :: ws)

/-- Every text can be divided into words. -/
theorem exists_divides (before bs : Bytes) : ∃ ws, Divides before bs ws := by
  have hgap : bs.takeWhile isSeparator ⊆ whiteSpace := fun b hb =>
    isSeparator_iff.1 (List.mem_takeWhile_imp hb)
  have hbs := List.takeWhile_append_dropWhile (p := isSeparator) (l := bs)
  cases h : bs.dropWhile isSeparator with
  | nil =>
    rw [h, List.append_nil] at hbs
    rw [hbs] at hgap
    exact ⟨[], .ended hgap⟩
  | cons b rest =>
    have hlen := congrArg List.length hbs
    have hrest_le := length_dropWhile_le (!isSeparator ·) rest
    have hword : (b :: rest.takeWhile (!isSeparator ·)).Disjoint whiteSpace := by
      intro b' hb' hw
      rw [← isSeparator_iff] at hw
      rcases List.mem_cons.1 hb' with rfl | hb'
      · rw [head_dropWhile_eq_false h] at hw
        cases hw
      · simpa [hw] using List.mem_takeWhile_imp hb'
    have hrest : ∀ b' ∈ (rest.dropWhile (!isSeparator ·)).head?, b' ∈ whiteSpace := by
      intro b' hb'
      obtain ⟨rest', hrest'⟩ := List.head?_eq_some_iff.1 hb'
      simpa [← isSeparator_iff] using head_dropWhile_eq_false hrest'
    obtain ⟨ws, hws⟩ := exists_divides
      (before ++ bs.takeWhile isSeparator ++ b :: rest.takeWhile (!isSeparator ·))
      (rest.dropWhile (!isSeparator ·))
    rw [← hbs, h, ← List.takeWhile_append_dropWhile (p := (!isSeparator ·)) (l := rest),
      ← List.cons_append]
    exact ⟨_, .word hgap (List.cons_ne_nil _ _) hword hrest hws⟩
termination_by bs.length
decreasing_by
  rw [h, List.length_append, List.length_cons] at hlen
  omega

/-! ## Runs -/

theorem runsFrom_of_gap {gap : Bytes} (hgap : gap ⊆ whiteSpace) (c : Cursor) :
    runsFrom c gap = [] :=
  runsFrom_of_nil c (List.dropWhile_eq_nil_iff.2 fun _ hb => isSeparator_iff.2 (hgap hb))

/-- The first word of a text is its first run. -/
theorem runsFrom_of_word {gap word rest : Bytes} (hgap : gap ⊆ whiteSpace) (hne : word ≠ [])
    (hword : word.Disjoint whiteSpace) (hrest : ∀ b ∈ rest.head?, b ∈ whiteSpace) (c : Cursor) :
    runsFrom c (gap ++ (word ++ rest)) =
      ⟨c.advanceAll gap, word, !rest.isEmpty⟩ ::
        runsFrom ((c.advanceAll gap).advanceAll word) rest := by
  obtain ⟨b, word, rfl⟩ := List.exists_cons_of_ne_nil hne
  have hsep : ∀ b ∈ gap, isSeparator b := fun b hb => isSeparator_iff.2 (hgap hb)
  have hb : ¬ isSeparator b := fun h => hword (.head _) (isSeparator_iff.1 h)
  have hin : ∀ b ∈ word, (!isSeparator b) = true := fun b hb => by
    simpa using fun h => hword (.tail _ hb) (isSeparator_iff.1 h)
  have hout : rest.takeWhile (!isSeparator ·) = [] ∧ rest.dropWhile (!isSeparator ·) = rest := by
    cases rest with
    | nil => exact ⟨rfl, rfl⟩
    | cons b' rest => simp [isSeparator_iff.2 (hrest b' rfl)]
  have hdrop : (gap ++ (b :: word ++ rest)).dropWhile isSeparator = b :: (word ++ rest) := by
    rw [List.dropWhile_append_of_pos hsep, List.cons_append, List.dropWhile_cons_of_neg hb]
  have htake : (gap ++ (b :: word ++ rest)).takeWhile isSeparator = gap := by
    rw [List.takeWhile_append_of_pos hsep, List.cons_append, List.takeWhile_cons_of_neg hb,
      List.append_nil]
  rw [runsFrom_of_cons c hdrop, htake, List.takeWhile_append_of_pos hin,
    List.dropWhile_append_of_pos hin, hout.1, hout.2, List.append_nil]

/-- A run is a word at its place. -/
def Run.IsAt (r : Run) (w : PlacedWord) : Prop :=
  r.start = Cursor.after w.before ∧ r.bytes = w.bytes

/-- The runs of a text are its words. -/
theorem Divides.runs {before text : Bytes} {ws : List PlacedWord} (h : Divides before text ws) :
    List.Forall₂ Run.IsAt (runsFrom (.after before) text) ws := by
  induction h with
  | ended hgap =>
    rw [runsFrom_of_gap hgap]
    exact .nil
  | word hgap hne hword hrest _ ih =>
    rw [runsFrom_of_word hgap hne hword hrest, ← Cursor.after_append, ← Cursor.after_append]
    exact .cons ⟨rfl, rfl⟩ ih

/-! ## Bytes of tokens -/

/-- The bytes that words may be made of. -/
def Printable (bs : Bytes) : Prop :=
  ∀ b ∈ bs, 0x21 ≤ b ∧ b ≤ 0x7e

theorem isTokenByte_iff {b : UInt8} : isTokenByte b ↔ 0x21 ≤ b ∧ b ≤ 0x7e := by
  simp [isTokenByte]

theorem printable_iff {bs : Bytes} : Printable bs ↔ bs.all isTokenByte := by
  simp only [Printable, List.all_eq_true, isTokenByte_iff]

/-- A word has a first byte that it may not have, or it can be printed. -/
theorem printable_or_invalid (bs : Bytes) :
    Printable bs ∨ ∃ good b bad, bs = good ++ b :: bad ∧ Printable good ∧
      ¬ (0x21 ≤ b ∧ b ≤ 0x7e) := by
  induction bs with
  | nil => exact .inl (List.forall_mem_nil _)
  | cons b bs ih =>
    by_cases hb : 0x21 ≤ b ∧ b ≤ 0x7e
    · rcases ih with hbs | ⟨good, b', bad, rfl, hgood, hb'⟩
      · exact .inl (List.forall_mem_cons.2 ⟨hb, hbs⟩)
      · exact .inr ⟨b :: good, b', bad, rfl, List.forall_mem_cons.2 ⟨hb, hgood⟩, hb'⟩
    · exact .inr ⟨[], b, bs, rfl, List.forall_mem_nil _, hb⟩

theorem firstInvalid_of_printable {bs : Bytes} (h : Printable bs) (c : Cursor) :
    firstInvalid c bs = none := by
  induction bs generalizing c with
  | nil => rfl
  | cons b bs ih =>
    obtain ⟨hb, hbs⟩ := List.forall_mem_cons.1 h
    rw [firstInvalid, if_pos (isTokenByte_iff.2 hb)]
    exact ih hbs _

theorem firstInvalid_append {good : Bytes} (h : Printable good) {b : UInt8}
    (hb : ¬ (0x21 ≤ b ∧ b ≤ 0x7e)) (bad : Bytes) (c : Cursor) :
    firstInvalid c (good ++ b :: bad) = some (c.advanceAll good, b) := by
  induction good generalizing c with
  | nil => exact if_neg fun hb' => hb (isTokenByte_iff.1 hb')
  | cons b' good ih =>
    obtain ⟨hb', hgood⟩ := List.forall_mem_cons.1 h
    rw [List.cons_append, firstInvalid, if_pos (isTokenByte_iff.2 hb'), ih hgood]
    rfl

theorem printable_of_firstInvalid {bs : Bytes} {c : Cursor} (h : firstInvalid c bs = none) :
    Printable bs := by
  rcases printable_or_invalid bs with hbs | ⟨good, b, bad, rfl, hgood, hb⟩
  · exact hbs
  · rw [firstInvalid_append hgood hb] at h
    cases h

theorem exists_of_firstInvalid {bs : Bytes} {c c' : Cursor} {b : UInt8}
    (h : firstInvalid c bs = some (c', b)) :
    ∃ good bad, bs = good ++ b :: bad ∧ ¬ (0x21 ≤ b ∧ b ≤ 0x7e) ∧ c' = c.advanceAll good := by
  rcases printable_or_invalid bs with hbs | ⟨good, b', bad, rfl, hgood, hb⟩
  · rw [firstInvalid_of_printable hbs] at h
    cases h
  · rw [firstInvalid_append hgood hb] at h
    cases h
    exact ⟨good, bad, rfl, hb, rfl⟩

end Metamath
