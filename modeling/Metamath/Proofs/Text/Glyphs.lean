import Mathlib.Data.List.Basic
import Mathlib.Tactic.SplitIfs
import Metamath.Text.Utf8

/-!
# Dividing bytes into characters

`IsSequence` says which bytes make up a character of more than one byte, apart from what follows
them, and `firstGlyph_cases` what the first character of a byte string can be. So bytes can be
divided anywhere between two characters: in front of a byte that continues none (`glyphs_append`),
after ASCII (`glyphs_append_of_ascii`), and wherever one of the characters ends
(`glyphs_flatMap_bytes`).
-/

namespace Metamath.Text

/-! ## Sequences -/

theorem isTail_iff {b : UInt8} : isTail b ↔ 0x80 ≤ b.toNat ∧ b.toNat ≤ 0xbf := by
  simp [isTail, UInt8.le_iff_toNat_le]

theorem startsThree_iff {b c : UInt8} :
    startsThree b c ↔ isTail c ∧ 0xe0 ≤ b.toNat ∧ b.toNat ≤ 0xef ∧
      (b.toNat = 0xe0 → 0xa0 ≤ c.toNat) ∧ (b.toNat = 0xed → c.toNat ≤ 0x9f) := by
  simp only [startsThree, isTail, Bool.or_eq_true, Bool.and_eq_true, decide_eq_true_eq, beq_iff_eq,
    bne_iff_ne, UInt8.le_iff_toNat_le, ← UInt8.toNat_inj, ne_eq, UInt8.reduceToNat]
  omega

theorem startsFour_iff {b c : UInt8} :
    startsFour b c ↔ isTail c ∧ 0xf0 ≤ b.toNat ∧ b.toNat ≤ 0xf4 ∧
      (b.toNat = 0xf0 → 0x90 ≤ c.toNat) ∧ (b.toNat = 0xf4 → c.toNat ≤ 0x8f) := by
  simp only [startsFour, isTail, Bool.or_eq_true, Bool.and_eq_true, decide_eq_true_eq, beq_iff_eq,
    UInt8.le_iff_toNat_le, ← UInt8.toNat_inj, UInt8.reduceToNat]
  omega

/-- `IsSequence b tails g`: a byte and the bytes after it make up one character. -/
inductive IsSequence (b : UInt8) : Bytes → Glyph → Prop
  | two {c : UInt8} (hb : 0xc2 ≤ b.toNat ∧ b.toNat ≤ 0xdf) (hc : isTail c) :
      IsSequence b [c] ⟨some ((b.toNat - 0xc0) * 64 + tailValue c), [b, c]⟩
  | three {c d : UInt8} (hbc : startsThree b c) (hd : isTail d) :
      IsSequence b [c, d]
        ⟨some (((b.toNat - 0xe0) * 64 + tailValue c) * 64 + tailValue d), [b, c, d]⟩
  | four {c d e : UInt8} (hbc : startsFour b c) (hd : isTail d) (he : isTail e) :
      IsSequence b [c, d, e]
        ⟨some ((((b.toNat - 0xf0) * 64 + tailValue c) * 64 + tailValue d) * 64 + tailValue e),
          [b, c, d, e]⟩

variable {b : UInt8} {rest tails : Bytes} {g : Glyph}

theorem isSequence_of_twoByte? (h : twoByte? b rest = some g) :
    ∃ tails, tails <+: rest ∧ IsSequence b tails g := by
  unfold twoByte? at h
  split at h
  · rename_i c more
    split_ifs at h with hc
    simp only [Bool.and_eq_true, decide_eq_true_eq, UInt8.le_iff_toNat_le] at hc
    cases h
    exact ⟨[c], List.prefix_append [c] more, .two hc.1 hc.2⟩
  · cases h

theorem isSequence_of_threeByte? (h : threeByte? b rest = some g) :
    ∃ tails, tails <+: rest ∧ IsSequence b tails g := by
  unfold threeByte? at h
  split at h
  · rename_i c d more
    split_ifs at h with hc
    rw [Bool.and_eq_true] at hc
    cases h
    exact ⟨[c, d], List.prefix_append [c, d] more, .three hc.1 hc.2⟩
  · cases h

theorem isSequence_of_fourByte? (h : fourByte? b rest = some g) :
    ∃ tails, tails <+: rest ∧ IsSequence b tails g := by
  unfold fourByte? at h
  split at h
  · rename_i c d e more
    split_ifs at h with hc
    rw [Bool.and_eq_true, Bool.and_eq_true] at hc
    cases h
    exact ⟨[c, d, e], List.prefix_append [c, d, e] more, .four hc.1.1 hc.1.2 hc.2⟩
  · cases h

/-- The sequence at the start of `b :: rest`, if there is one. -/
def sequence? (b : UInt8) (rest : Bytes) : Option Glyph :=
  ((twoByte? b rest).or (threeByte? b rest)).or (fourByte? b rest)

theorem sequence?_eq_some_iff :
    sequence? b rest = some g ↔ ∃ tails, tails <+: rest ∧ IsSequence b tails g := by
  constructor
  · intro h
    rcases Option.or_eq_some_iff.1 h with h | ⟨-, h⟩
    · rcases Option.or_eq_some_iff.1 h with h | ⟨-, h⟩
      · exact isSequence_of_twoByte? h
      · exact isSequence_of_threeByte? h
    · exact isSequence_of_fourByte? h
  · rintro ⟨tails, ⟨more, rfl⟩, h⟩
    -- the first byte says how many follow
    unfold sequence?
    cases h with
    | @two c hb hc =>
      have htwo : 0xc2 ≤ b ∧ b ≤ 0xdf := hb
      simp [twoByte?, htwo, hc]
    | @three c d hbc hd =>
      have htwo : ¬ b ≤ 0xdf := by
        rw [UInt8.le_iff_toNat_le]
        have := (startsThree_iff.1 hbc).2.1
        simp only [UInt8.reduceToNat]
        omega
      simp [twoByte?, threeByte?, htwo, hbc, hd]
    | @four c d e hbc hd he =>
      have hb := (startsFour_iff.1 hbc).2.1
      have htwo : ¬ b ≤ 0xdf := by
        rw [UInt8.le_iff_toNat_le]
        simp only [UInt8.reduceToNat]
        omega
      have hthree : startsThree b c = false := by
        rw [Bool.eq_false_iff]
        intro h
        have := (startsThree_iff.1 h).2.2.1
        omega
      simp [twoByte?, threeByte?, fourByte?, htwo, hthree, hbc, hd, he]

namespace IsSequence

theorem bytes_eq (h : IsSequence b tails g) : g.bytes = b :: tails := by
  cases h <;> rfl

theorem isTail_of_mem (h : IsSequence b tails g) : ∀ c ∈ tails, isTail c := by
  cases h with
  | two hb hc => simpa using hc
  | three hbc hd => simpa using ⟨(startsThree_iff.1 hbc).1, hd⟩
  | four hbc hd he => simpa using ⟨(startsFour_iff.1 hbc).1, hd, he⟩

theorem exists_code (h : IsSequence b tails g) : ∃ code, 0x80 ≤ code ∧ g.code? = some code := by
  cases h with
  | two hb hc =>
    refine ⟨_, ?_, rfl⟩
    omega
  | @three c d hbc hd =>
    obtain ⟨hc, h₁, -, h₂, -⟩ := startsThree_iff.1 hbc
    rw [isTail_iff] at hc
    refine ⟨_, ?_, rfl⟩
    unfold tailValue
    omega
  | four hbc hd he =>
    obtain ⟨hc, h₁, -, h₂, -⟩ := startsFour_iff.1 hbc
    rw [isTail_iff] at hc
    refine ⟨_, ?_, rfl⟩
    unfold tailValue
    omega

end IsSequence

/-! ## The first character -/

/-- What the first character can be: an ASCII byte, a sequence, or a byte that starts none. -/
theorem firstGlyph_cases (b : UInt8) (rest : Bytes) :
    (b < 0x80 ∧ firstGlyph b rest = ⟨some b.toNat, [b]⟩) ∨
      (¬ b < 0x80 ∧ ∃ tails, tails <+: rest ∧ IsSequence b tails (firstGlyph b rest)) ∨
      (¬ b < 0x80 ∧ (∀ tails g, tails <+: rest → ¬ IsSequence b tails g) ∧
        firstGlyph b rest = ⟨none, [b]⟩) := by
  by_cases hb : b < 0x80
  · exact .inl ⟨hb, if_pos hb⟩
  · have hfirst : firstGlyph b rest = (sequence? b rest).getD ⟨none, [b]⟩ := if_neg hb
    right
    cases hs : sequence? b rest with
    | some g =>
      rw [hfirst, hs]
      exact .inl ⟨hb, sequence?_eq_some_iff.1 hs⟩
    | none =>
      refine .inr ⟨hb, fun tails g htails h => ?_, by rw [hfirst, hs]; rfl⟩
      have := sequence?_eq_some_iff.2 ⟨tails, htails, h⟩
      rw [hs] at this
      cases this

/-- A sequence is the first character whatever follows it. -/
theorem IsSequence.firstGlyph_eq (h : IsSequence b tails g) (hb : ¬ b < 0x80)
    (htails : tails <+: rest) : firstGlyph b rest = g := by
  have hs : sequence? b rest = some g := sequence?_eq_some_iff.2 ⟨tails, htails, h⟩
  have hfirst : firstGlyph b rest = (sequence? b rest).getD ⟨none, [b]⟩ := if_neg hb
  rw [hfirst, hs]
  rfl

theorem firstGlyph_bytes (b : UInt8) (rest : Bytes) :
    ∃ tails, (firstGlyph b rest).bytes = b :: tails ∧ tails <+: rest ∧ ∀ c ∈ tails, isTail c := by
  rcases firstGlyph_cases b rest with ⟨-, hg⟩ | ⟨-, tails, htails, hg⟩ | ⟨-, -, hg⟩
  · exact ⟨[], by rw [hg], List.nil_prefix, List.forall_mem_nil _⟩
  · exact ⟨tails, hg.bytes_eq, htails, hg.isTail_of_mem⟩
  · exact ⟨[], by rw [hg], List.nil_prefix, List.forall_mem_nil _⟩

/-- Bytes that are cut off after the first character do not matter to it. -/
theorem firstGlyph_of_prefix {rest' : Bytes} (hrest : rest' <+: rest)
    (hbytes : (firstGlyph b rest).bytes = b :: tails) (htails : tails <+: rest') :
    firstGlyph b rest' = firstGlyph b rest := by
  rcases firstGlyph_cases b rest with ⟨hb, hg⟩ | ⟨hb, tails', -, hg⟩ | ⟨hb, hnone, hg⟩
  · rw [hg]
    exact if_pos hb
  · obtain rfl : tails' = tails := (List.cons.inj (hg.bytes_eq.symm.trans hbytes)).2
    exact hg.firstGlyph_eq hb htails
  · rw [hg]
    rcases firstGlyph_cases b rest' with ⟨hb', -⟩ | ⟨-, tails', htails', hg'⟩ | ⟨-, -, hg'⟩
    · exact absurd hb' hb
    · exact absurd hg' (hnone tails' _ (htails'.trans hrest))
    · exact hg'

theorem tab_mem_bytes_firstGlyph_iff :
    9 ∈ (firstGlyph b rest).bytes ↔ (firstGlyph b rest).code? = some 9 := by
  have hascii : ¬ b < 0x80 → 9 ≠ b := by
    rintro hb rfl
    exact hb (by decide)
  rcases firstGlyph_cases b rest with ⟨hb, hg⟩ | ⟨hb, tails, -, hg⟩ | ⟨hb, -, hg⟩
  · simp [hg, ← UInt8.toNat_inj, eq_comm]
  · obtain ⟨code, hcode, hsome⟩ := hg.exists_code
    have htails : 9 ∉ tails := fun hmem => absurd (hg.isTail_of_mem 9 hmem) (by decide)
    rw [hg.bytes_eq, hsome]
    simp only [List.mem_cons, hascii hb, htails, or_self, Option.some.injEq, false_iff]
    omega
  · simp [hg, hascii hb]

/-! ## All characters -/

theorem glyphs_nil : glyphs [] = [] := by
  rw [glyphs]

theorem glyphs_cons (hbytes : (firstGlyph b rest).bytes = b :: tails) :
    glyphs (b :: rest) = firstGlyph b rest :: glyphs (rest.drop tails.length) := by
  rw [glyphs]
  simp [hbytes]

theorem glyphs_cons_of_ascii (hb : b < 0x80) (rest : Bytes) :
    glyphs (b :: rest) = ⟨some b.toNat, [b]⟩ :: glyphs rest := by
  have hg : firstGlyph b rest = ⟨some b.toNat, [b]⟩ := if_pos hb
  have hbytes : (firstGlyph b rest).bytes = b :: [] := by rw [hg]
  rw [glyphs_cons hbytes, hg]
  rfl

theorem glyphs_append_of_ascii {as : Bytes} (h : ∀ b ∈ as, b < 0x80) (bs : Bytes) :
    glyphs (as ++ bs) = (as.map fun b => ⟨some b.toNat, [b]⟩) ++ glyphs bs := by
  induction as with
  | nil => rfl
  | cons b as ih =>
    obtain ⟨hb, has⟩ := List.forall_mem_cons.1 h
    rw [List.cons_append, glyphs_cons_of_ascii hb, ih has]
    rfl

theorem glyphs_of_ascii {bs : Bytes} (h : ∀ b ∈ bs, b < 0x80) :
    glyphs bs = bs.map fun b => ⟨some b.toNat, [b]⟩ := by
  have hglyphs := glyphs_append_of_ascii h []
  rwa [List.append_nil, glyphs_nil, List.append_nil] at hglyphs

theorem mem_glyphs {bs : Bytes} (h : g ∈ glyphs bs) : ∃ b rest, g = firstGlyph b rest := by
  fun_induction glyphs bs with
  | case1 => cases h
  | case2 b rest first ih =>
    rcases List.mem_cons.1 h with rfl | h
    · exact ⟨b, rest, rfl⟩
    · exact ih h

theorem flatMap_bytes_glyphs (bs : Bytes) : (glyphs bs).flatMap Glyph.bytes = bs := by
  fun_induction glyphs bs with
  | case1 => rfl
  | case2 b rest first ih =>
    obtain ⟨tails, hbytes, ⟨more, rfl⟩, -⟩ := firstGlyph_bytes b rest
    have hfirst : first.bytes = b :: tails := hbytes
    rw [List.flatMap_cons, ih, hfirst]
    simp

/-- Among the bytes a tab is a character of its own. -/
theorem tab_mem_iff {bs : Bytes} : 9 ∈ bs ↔ ∃ g ∈ glyphs bs, g.code? = some 9 := by
  conv_lhs => rw [← flatMap_bytes_glyphs bs, List.mem_flatMap]
  refine exists_congr fun g => and_congr_right fun hg => ?_
  obtain ⟨b, rest, rfl⟩ := mem_glyphs hg
  exact tab_mem_bytes_firstGlyph_iff

/-- Bytes of a class at the start do not reach into bytes that start with none of it. -/
theorem prefix_of_prefix_append {α : Type} {p : α → Prop} {xs as bs : List α} (h : xs <+: as ++ bs)
    (hxs : ∀ x ∈ xs, p x) (hbs : ∀ b ∈ bs.head?, ¬ p b) : xs <+: as := by
  induction as generalizing xs with
  | nil =>
    cases xs with
    | nil => exact List.nil_prefix
    | cons x xs =>
      obtain ⟨more, hmore⟩ := h
      rw [List.nil_append] at hmore
      exact absurd (hxs x (.head _)) (hbs x (by rw [← hmore]; rfl))
  | cons a as ih =>
    cases xs with
    | nil => exact List.nil_prefix
    | cons x xs =>
      rw [List.cons_append, List.cons_prefix_cons] at h
      rw [List.cons_prefix_cons]
      exact ⟨h.1, ih h.2 fun y hy => hxs y (.tail _ hy)⟩

/-- Bytes can be divided in front of a byte that continues no character. -/
theorem glyphs_append (as : Bytes) {bs : Bytes} (h : ∀ c ∈ bs.head?, ¬ isTail c) :
    glyphs (as ++ bs) = glyphs as ++ glyphs bs := by
  fun_induction glyphs as with
  | case1 => rfl
  | case2 b rest first ih =>
    obtain ⟨tails, hbytes, htails, htail⟩ := firstGlyph_bytes b (rest ++ bs)
    have hrest : tails <+: rest := prefix_of_prefix_append htails htail h
    have hfirst : first = firstGlyph b (rest ++ bs) :=
      firstGlyph_of_prefix (List.prefix_append rest bs) hbytes hrest
    rw [List.cons_append, glyphs_cons hbytes, ← hfirst,
      List.drop_append_of_le_length hrest.length_le]
    rw [← hfirst] at hbytes
    simp only [hbytes, List.length_cons, Nat.add_sub_cancel] at ih
    rw [ih, List.cons_append, hbytes]
    simp

/-- Bytes can be divided where one of their characters ends. -/
theorem glyphs_flatMap_bytes {bs : Bytes} {gs gs' : List Glyph} (h : glyphs bs = gs ++ gs') :
    glyphs (gs.flatMap Glyph.bytes) = gs ∧ glyphs (gs'.flatMap Glyph.bytes) = gs' := by
  induction gs generalizing bs with
  | nil =>
    rw [List.nil_append] at h
    rw [← h, flatMap_bytes_glyphs]
    exact ⟨glyphs_nil, rfl⟩
  | cons g gs ih =>
    cases bs with
    | nil =>
      rw [glyphs_nil] at h
      cases h
    | cons b rest =>
      obtain ⟨tails, hbytes, ⟨more, rfl⟩, -⟩ := firstGlyph_bytes b rest
      rw [glyphs_cons hbytes, List.drop_left, List.cons_append, List.cons.injEq] at h
      obtain ⟨rfl, h⟩ := h
      obtain ⟨hgs, hgs'⟩ := ih h
      refine ⟨?_, hgs'⟩
      have hmore : gs.flatMap Glyph.bytes <+: more := by
        rw [← flatMap_bytes_glyphs more, h, List.flatMap_append]
        exact List.prefix_append _ _
      have hfirst := firstGlyph_of_prefix ((List.prefix_append_right_inj tails).2 hmore) hbytes
        (List.prefix_append _ _)
      rw [List.flatMap_cons, hbytes, List.cons_append, glyphs_cons (hfirst ▸ hbytes), hfirst,
        List.drop_left, hgs]

end Metamath.Text
