import Metamath.Proofs.Letters
import Metamath.Proofs.Statement.Perform

/-!
# Unknown steps

A replay becomes incomplete at an unknown step and at no other, and stays so. Hence a proof that is
accepted is incomplete exactly when it is written with a `?` (`WrittenProof.hasUnknown_of_check?`):
as a step of a normal proof, or among the letters of a compressed one.
-/

namespace Metamath

/-- What only some steps bring about, and no step undoes, holds after a run if it did before or one
of these steps was taken. -/
theorem runSteps_flag_iff {σ α ε : Type} {f : σ → α → Except ε σ} {taken : Nat} {s s' : σ}
    {as : List α} (h : runSteps f taken s as = (s', none)) {P : σ → Prop} {p : α → Prop}
    (hf : ∀ s a s', f s a = .ok s' → (P s' ↔ P s ∨ p a)) : P s' ↔ P s ∨ ∃ a ∈ as, p a := by
  induction as generalizing taken s with
  | nil =>
    cases h
    simp
  | cons a as ih =>
    obtain ⟨s₁, h₁, h⟩ := runSteps_cons_eq_none_iff.1 h
    rw [ih h, hf _ _ _ h₁, List.exists_mem_cons_iff, or_assoc]

variable {db : Database} {thm : Assertion}

theorem Replay.incomplete_of_step {r r' : Replay} {l : Label} (h : r.step db thm l = .ok r') :
    r'.incomplete ↔ r.incomplete ∨ l = "?" := by
  obtain ⟨rfl, rfl⟩ | ⟨hl, -, h₀, -, rfl⟩ | ⟨hl, -, -, a, -, ha⟩ := step_cases h
  · simp [pushUnknown]
  · simp [push, hl]
  · simp [apply_incomplete ha, hl]

/-- Whether a step of a compressed proof is unknown: it is written so, or it stands for the label
`?`. -/
def CompressedStep.IsUnknown (thm : Assertion) (labels : List Label) : CompressedStep → Prop
  | unknown => True
  | mark => False
  | number n => thm.hypotheses.length ≤ n - 1 ∧ labels[n - 1 - thm.hypotheses.length]? = some "?"

theorem CompressedStep.isUnknown_iff {labels : List Label} (hlabels : "?" ∉ labels)
    {s : CompressedStep} : s.IsUnknown thm labels ↔ s = .unknown := by
  cases s with
  | unknown => exact iff_of_true trivial rfl
  | mark => exact iff_of_false id (by simp)
  | number n => exact iff_of_false (fun h => hlabels (List.mem_of_getElem? h.2)) (by simp)

theorem CompressedReplay.incomplete_of_step {labels : List Label} {c c' : CompressedReplay}
    {s : CompressedStep} (h : c.step db thm labels s = .ok c') :
    c'.replay.incomplete ↔ c.replay.incomplete ∨ s.IsUnknown thm labels := by
  obtain ⟨rfl, rfl⟩ | ⟨rfl, item, -, rfl⟩ | ⟨n, rfl, ⟨hn, l, -, h₀, -, rfl⟩ |
    ⟨hn, ⟨l, r, hl, hr, rfl⟩ | ⟨hl, item, -, rfl⟩⟩⟩ := step_cases h
  · simp [Replay.pushUnknown, CompressedStep.IsUnknown]
  · simp [CompressedStep.IsUnknown]
  · simp [Replay.push, CompressedStep.IsUnknown, Nat.not_le.2 hn]
  · simp [Replay.incomplete_of_step hr, CompressedStep.IsUnknown, hn, hl]
  · simp [Replay.push, CompressedStep.IsUnknown, hl]

theorem incomplete_checkNormal {steps : List Label} {b : Bool}
    (h : checkNormal db thm steps = ⟨b, none⟩) : b ↔ "?" ∈ steps := by
  obtain ⟨r, hrun, -, rfl⟩ := checkNormal_eq_accepted_iff.1 h
  have hflag := runSteps_flag_iff hrun fun _ _ _ => Replay.incomplete_of_step
  simpa using hflag

/-- A `?` among letters is read as an unknown step, and nothing else is. -/
theorem unknown_mem_of_decodeFrom {high : Int64} {markable : Bool} {letters : Bytes}
    {steps : List CompressedStep} (h : decodeFrom high markable letters = .ok steps) :
    .unknown ∈ steps ↔ 0x3f ∈ letters := by
  fun_induction decodeFrom high markable letters generalizing steps with
  | case1 =>
    cases h
    simp
  | @case4 _ _ b rest hb n hn ih =>
    obtain ⟨steps, hsteps, rfl⟩ := map_eq_ok_iff.1 h
    have hne : 0x3f ≠ b := by
      rintro rfl
      revert hb
      decide
    simp [ih hsteps, hne]
  | @case6 _ _ b rest _ hb n hn ih =>
    have hne : 0x3f ≠ b := by
      rintro rfl
      revert hb
      decide
    simp [ih h, hne]
  | case7 _ _ _ _ ih =>
    obtain ⟨steps, hsteps, rfl⟩ := map_eq_ok_iff.1 h
    simp [ih hsteps]
  | case9 =>
    obtain ⟨steps, hsteps, rfl⟩ := map_eq_ok_iff.1 h
    simp
  | _ => cases h

theorem incomplete_checkCompressed {labels : List Label} (hlabels : "?" ∉ labels) {letters : Bytes}
    {b : Bool} (h : checkCompressed db thm labels letters = ⟨b, none⟩) : b ↔ 0x3f ∈ letters := by
  obtain ⟨steps, c, hdecode, hrun, -, rfl⟩ := checkCompressed_eq_accepted_iff.1 h
  have hflag := runSteps_flag_iff hrun fun _ _ _ => CompressedReplay.incomplete_of_step
  rw [← unknown_mem_of_decodeFrom hdecode]
  simpa [CompressedStep.isUnknown_iff hlabels] using hflag

theorem unknown_mem_utf8_iff {s : String} : 0x3f ∈ utf8 s ↔ '?' ∈ s.toList := by
  -- all bytes of a character beyond ASCII are above 127
  have hchar : ∀ c : Char, 0x3f ∈ String.utf8EncodeChar c ↔ c = '?' := by
    intro c
    rw [← Char.toNat_inj]
    change _ ↔ c.val.toNat = 63
    have hunknown : (0x3f : UInt8).toNat = 63 := rfl
    unfold String.utf8EncodeChar
    dsimp only
    generalize c.val.toNat = n
    split_ifs
    all_goals
      simp only [List.mem_cons, List.not_mem_nil, or_false, ← UInt8.toNat_inj,
        UInt8.toNat_ofNat', hunknown]
      omega
  simp [utf8, hchar]

/-! ## Written proofs -/

namespace WrittenProof

/-- Whether a proof is written with an unknown step. -/
def hasUnknown : WrittenProof → Bool
  | normal steps => steps.contains "?"
  | compressed _ chunks => chunks.any fun chunk => chunk.toList.contains '?'

/-- An accepted proof is incomplete exactly when it has an unknown step. -/
theorem hasUnknown_of_check? (hdb : db.WellNamed) {p : WrittenProof} {b : Bool}
    (h : p.check? db thm = some b) : p.hasUnknown = b := by
  obtain ⟨ha, hv, hb⟩ := check?_eq_some_iff.1 h
  have haccepted : p.verdict db thm = ⟨b, none⟩ := by
    rw [← hv, ← hb]
  rw [Bool.eq_iff_iff]
  cases p with
  | normal steps => rw [incomplete_checkNormal haccepted, hasUnknown, List.contains_iff_mem]
  | compressed labels chunks =>
    have hlabels : "?" ∉ labels :=
      notMem_of_forall (fun l hl => hdb.isLabel_of_names (ha.1 l hl).2.2) (by decide)
    rw [incomplete_checkCompressed hlabels haccepted, List.mem_flatMap]
    simp [hasUnknown, unknown_mem_utf8_iff]

end WrittenProof

end Metamath
