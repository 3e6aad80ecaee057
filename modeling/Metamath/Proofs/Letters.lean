import Mathlib.Tactic.SplitIfs
import Metamath.Proof.Letters
import Metamath.Proofs.Except

/-!
# Writing the letters of compressed proofs

`encodeNumber` writes a number with the digits that `decodeFrom` reads: a last digit from 1 to 20,
and before it digits from 1 to 5. The tests that `decodeFrom` makes before it computes are exact
(`div_lt_iff_maxNumber_lt`), and what passes them does not wrap around (`toNatClampNeg_digit`). Every
number has one form in digits, and reading it gives the number back, whatever follows
(`decodeFrom_encodeNumber`). A list of steps is `Writable` when its numbers
are in range and each mark follows a number. Such lists are read back from their letters
(`decodeFrom_flatMap_encode`), and no other letters can be read
(`eq_flatMap_encode_of_decodeFrom`), so reading and writing are inverse to each other
(`decodeLetters_eq_ok_iff`).
-/

namespace Metamath

/-- The leading digits of a number. There is no digit zero, so a digit is what is left over after
taking one away. -/
def encodeHigh : Nat → Bytes
  | 0 => []
  | n + 1 => encodeHigh (n / 5) ++ [UInt8.ofNat (0x55 + n % 5)]
termination_by n => n
decreasing_by omega

/-- The letters of a number that is not zero. -/
def encodeNumber (n : Nat) : Bytes :=
  encodeHigh ((n - 1) / 20) ++ [UInt8.ofNat (0x41 + (n - 1) % 20)]

/-- The letters of a step. -/
def CompressedStep.encode : CompressedStep → Bytes
  | .number n => encodeNumber n
  | .mark => [0x5a]
  | .unknown => [0x3f]

/-! ## Digits in a word -/

section Word

variable {base high digit n : Nat}

theorem lt_of_le_maxNumber (h : n ≤ maxNumber) : n < 0x8000000000000000 :=
  Nat.lt_succ_of_le h

theorem ofNat_eq_zero_iff (hhigh : high ≤ maxNumber) : Int64.ofNat high = 0 ↔ high = 0 := by
  rw [← Int64.toInt_inj, Int64.toInt_ofNat_of_lt (lt_of_le_maxNumber hhigh)]
  exact Int.natCast_eq_zero

/-- The test that comes before a digit is put to a number is exact. -/
theorem div_lt_iff_maxNumber_lt (hpos : 0 < base) (hbase : base ≤ maxNumber)
    (hdigit : digit ≤ maxNumber) (hhigh : high ≤ maxNumber) :
    (Int64.maxValue - Int64.ofNat digit) / Int64.ofNat base < Int64.ofNat high ↔
      maxNumber < base * high + digit := by
  have hmax : Int64.maxValue = Int64.ofNat maxNumber := rfl
  have hquotient : (maxNumber - digit) / base ≤ maxNumber :=
    Nat.le_trans (Nat.div_le_self _ _) (Nat.sub_le _ _)
  rw [hmax, ← Int64.ofNat_sub _ _ hdigit,
    ← Int64.ofNat_div (lt_of_le_maxNumber (Nat.sub_le _ _)) (lt_of_le_maxNumber hbase),
    Int64.ofNat_lt_iff_lt (lt_of_le_maxNumber hquotient) (lt_of_le_maxNumber hhigh),
    Nat.div_lt_iff_lt_mul hpos, Nat.mul_comm]
  omega

/-- A number that passes the test has room in a word. -/
theorem toNatClampNeg_digit (h : base * high + digit ≤ maxNumber) :
    (Int64.ofNat base * Int64.ofNat high + Int64.ofNat digit).toNatClampNeg =
      base * high + digit := by
  rw [← Int64.ofNat_mul, ← Int64.ofNat_add]
  exact Int64.toNatClampNeg_ofNat_of_lt (lt_of_le_maxNumber h)

end Word

/-! ## Reading one letter -/

section Letter

variable (markable : Bool) (rest : Bytes)

theorem decodeFrom_last {high : Nat} (hhigh : high ≤ maxNumber) {d : Nat} (hd : d < 20) :
    decodeFrom (.ofNat high) markable (UInt8.ofNat (0x41 + d) :: rest) =
      if maxNumber < 20 * high + d + 1 then .error .overflow
      else (decodeFrom 0 true rest).map (.number (20 * high + d + 1) :: ·) := by
  have hb : (UInt8.ofNat (0x41 + d)).toNat = 0x41 + d := by
    rw [UInt8.toNat_ofNat']
    omega
  have hletter : 0x41 ≤ UInt8.ofNat (0x41 + d) ∧ UInt8.ofNat (0x41 + d) ≤ 0x54 := by
    rw [UInt8.le_iff_toNat_le, UInt8.le_iff_toNat_le, hb]
    exact ⟨Nat.le_add_right _ _, show 0x41 + d ≤ 0x54 by omega⟩
  have hdigit : Int64.ofNat (UInt8.ofNat (0x41 + d) - 0x41).toNat + 1 = Int64.ofNat (d + 1) := by
    rw [UInt8.toNat_sub_of_le _ _ hletter.1, hb, Int64.ofNat_add]
    exact congrArg (fun n => Int64.ofNat n + 1) (Nat.add_sub_cancel_left _ _)
  have hguard : (Int64.maxValue - Int64.ofNat (d + 1)) / 20 < Int64.ofNat high ↔
      maxNumber < 20 * high + d + 1 :=
    div_lt_iff_maxNumber_lt (by decide) (by decide) (Nat.le_trans hd (by decide)) hhigh
  rw [decodeFrom, if_pos hletter]
  dsimp only
  rw [hdigit]
  simp only [hguard]
  split_ifs with hmax
  · rfl
  · have hvalue : (20 * Int64.ofNat high + Int64.ofNat (d + 1)).toNatClampNeg = 20 * high + d + 1 :=
      toNatClampNeg_digit (Nat.not_lt.1 hmax)
    rw [hvalue]

theorem decodeFrom_leading {high : Nat} (hhigh : high ≤ maxNumber) {d : Nat} (hd : d < 5) :
    decodeFrom (.ofNat high) markable (UInt8.ofNat (0x55 + d) :: rest) =
      if maxNumber < 5 * high + d + 1 then .error .overflow
      else decodeFrom (.ofNat (5 * high + d + 1)) false rest := by
  have hb : (UInt8.ofNat (0x55 + d)).toNat = 0x55 + d := by
    rw [UInt8.toNat_ofNat']
    omega
  have hnot : ¬ (0x41 ≤ UInt8.ofNat (0x55 + d) ∧ UInt8.ofNat (0x55 + d) ≤ 0x54) := by
    rw [UInt8.le_iff_toNat_le, UInt8.le_iff_toNat_le, hb]
    exact fun h => absurd (show 0x55 + d ≤ 0x54 from h.2) (by omega)
  have hletter : 0x55 ≤ UInt8.ofNat (0x55 + d) ∧ UInt8.ofNat (0x55 + d) ≤ 0x59 := by
    rw [UInt8.le_iff_toNat_le, UInt8.le_iff_toNat_le, hb]
    exact ⟨Nat.le_add_right _ _, show 0x55 + d ≤ 0x59 by omega⟩
  have hdigit : (UInt8.ofNat (0x55 + d) - 0x54).toNat = d + 1 := by
    rw [UInt8.toNat_sub_of_le _ _ (UInt8.le_trans (by decide) hletter.1), hb]
    change 0x55 + d - 0x54 = d + 1
    omega
  have hguard : (Int64.maxValue - Int64.ofNat (d + 1)) / 5 < Int64.ofNat high ↔
      maxNumber < 5 * high + d + 1 :=
    div_lt_iff_maxNumber_lt (by decide) (by decide) (Nat.le_trans hd (by decide)) hhigh
  rw [decodeFrom, if_neg hnot, if_pos hletter]
  dsimp only
  rw [hdigit]
  simp only [hguard]
  rw [Nat.add_assoc, Int64.ofNat_add (5 * high), Int64.ofNat_mul]
  rfl

variable (high : Int64)

theorem decodeFrom_mark :
    decodeFrom high markable (0x5a :: rest) =
      if markable then (decodeFrom high false rest).map (.mark :: ·) else .error .strayMark := rfl

theorem decodeFrom_unknown :
    decodeFrom high markable (0x3f :: rest) =
      if high = 0 then (decodeFrom 0 false rest).map (.unknown :: ·)
      else .error .unknownInNumber := rfl

end Letter

/-- A byte is a last digit, a leading digit, a mark, an unknown step or no letter. -/
theorem letter_cases (b : UInt8) :
    (∃ d < 20, b = UInt8.ofNat (0x41 + d)) ∨ (∃ d < 5, b = UInt8.ofNat (0x55 + d)) ∨ b = 0x5a ∨
      b = 0x3f ∨ ∀ high markable rest, decodeFrom high markable (b :: rest) = .error (.bogus b) := by
  have hofNat : ∀ {k : Nat}, k ≤ b.toNat → b = UInt8.ofNat (k + (b.toNat - k)) := by
    intro k hk
    rw [Nat.add_sub_cancel' hk, UInt8.ofNat_toNat]
  by_cases hlast : 0x41 ≤ b ∧ b ≤ 0x54
  · obtain ⟨h₁, h₂⟩ := hlast
    rw [UInt8.le_iff_toNat_le] at h₁ h₂
    change 0x41 ≤ b.toNat at h₁
    change b.toNat ≤ 0x54 at h₂
    exact .inl ⟨b.toNat - 0x41, by omega, hofNat h₁⟩
  · by_cases hleading : 0x55 ≤ b ∧ b ≤ 0x59
    · obtain ⟨h₁, h₂⟩ := hleading
      rw [UInt8.le_iff_toNat_le] at h₁ h₂
      change 0x55 ≤ b.toNat at h₁
      change b.toNat ≤ 0x59 at h₂
      exact .inr (.inl ⟨b.toNat - 0x55, by omega, hofNat h₁⟩)
    · by_cases hmark : b = 0x5a
      · exact .inr (.inr (.inl hmark))
      · by_cases hunknown : b = 0x3f
        · exact .inr (.inr (.inr (.inl hunknown)))
        · refine .inr (.inr (.inr (.inr fun high markable rest => ?_)))
          rw [decodeFrom, if_neg hlast, if_neg hleading, if_neg hmark, if_neg hunknown]

/-! ## Reading what was written -/

/-- After the leading digits of a number the value is at least the number, and it is the number if no
digits were read before, unless it is out of range. Only a mark could tell what came before them. -/
theorem decodeFrom_encodeHigh (n : Nat) {high : Nat} (hhigh : high ≤ maxNumber) (markable : Bool)
    (rest : Bytes) :
    (decodeFrom (.ofNat high) markable (encodeHigh n ++ rest) = .error .overflow ∧
        (high = 0 → maxNumber < n)) ∨
      ∃ high' markable', high' ≤ maxNumber ∧ (n ≤ high' ∧ (high = 0 → high' = n)) ∧
        decodeFrom (.ofNat high) markable (encodeHigh n ++ rest) =
          decodeFrom (.ofNat high') markable' rest := by
  -- all digits but the last stand for a fifth of what the last leaves over
  induction n using Nat.strongRecOn generalizing rest with
  | ind n ih =>
    cases n with
    | zero =>
      exact .inr ⟨high, markable, hhigh, ⟨Nat.zero_le _, id⟩, by rw [encodeHigh, List.nil_append]⟩
    | succ n =>
      rw [encodeHigh, List.append_assoc, List.singleton_append]
      rcases ih (n / 5) (by omega) (UInt8.ofNat (0x55 + n % 5) :: rest) with
        ⟨hover, hmax⟩ | ⟨high', markable', hhigh', ⟨hle, hvalue⟩, heq⟩
      · exact .inl ⟨hover, fun h => by have := hmax h; omega⟩
      · rw [heq, decodeFrom_leading _ _ hhigh' (Nat.mod_lt _ (by decide))]
        split_ifs with hmax
        · exact .inl ⟨rfl, fun h => by have := hvalue h; omega⟩
        · refine .inr ⟨_, false, Nat.not_lt.1 hmax, ⟨by omega, fun h => ?_⟩, rfl⟩
          have := hvalue h
          omega

theorem decodeFrom_encodeNumber {n : Nat} (hpos : 0 < n) (hmax : n ≤ maxNumber) (markable : Bool)
    (rest : Bytes) :
    decodeFrom 0 markable (encodeNumber n ++ rest) =
      (decodeFrom 0 true rest).map (.number n :: ·) := by
  rw [encodeNumber, List.append_assoc, List.singleton_append]
  rcases decodeFrom_encodeHigh ((n - 1) / 20) (Nat.zero_le _) markable
    (UInt8.ofNat (0x41 + (n - 1) % 20) :: rest) with
    ⟨-, hover⟩ | ⟨high, markable', hhigh, ⟨-, hvalue⟩, heq⟩
  · exact absurd (hover rfl) (by omega)
  · have hn : 20 * high + (n - 1) % 20 + 1 = n := by
      have := hvalue rfl
      omega
    refine heq.trans ?_
    rw [decodeFrom_last _ _ hhigh (Nat.mod_lt _ (by decide)), hn, if_neg (Nat.not_lt.2 hmax)]

theorem decodeFrom_encodeNumber_of_lt {n : Nat} (hmax : maxNumber < n) {high : Nat}
    (hhigh : high ≤ maxNumber) (markable : Bool) (rest : Bytes) :
    decodeFrom (.ofNat high) markable (encodeNumber n ++ rest) = .error .overflow := by
  rw [encodeNumber, List.append_assoc, List.singleton_append]
  rcases decodeFrom_encodeHigh ((n - 1) / 20) hhigh markable
    (UInt8.ofNat (0x41 + (n - 1) % 20) :: rest) with
    ⟨hover, -⟩ | ⟨high', markable', hhigh', ⟨hle, -⟩, heq⟩
  · exact hover
  · rw [heq, decodeFrom_last _ _ hhigh' (Nat.mod_lt _ (by decide)), if_pos (by omega)]

/-- Steps that letters can say: numbers are in range, and a mark stands right after a number. The
flag says whether a number stands in front of the list. -/
def Writable : Bool → List CompressedStep → Prop
  | _, [] => True
  | _, .number n :: steps => (0 < n ∧ n ≤ maxNumber) ∧ Writable true steps
  | markable, .mark :: steps => markable ∧ Writable false steps
  | _, .unknown :: steps => Writable false steps

/-- A number in front does no harm. -/
theorem Writable.mono {steps : List CompressedStep} (h : Writable false steps) (markable : Bool) :
    Writable markable steps := by
  cases steps with
  | nil => trivial
  | cons s steps =>
    cases s with
    | mark => cases h.1
    | _ => exact h

theorem Writable.number_bounds {markable : Bool} {steps : List CompressedStep}
    (h : Writable markable steps) {n : Nat} (hn : .number n ∈ steps) : 0 < n ∧ n ≤ maxNumber := by
  induction steps generalizing markable with
  | nil => cases hn
  | cons s steps ih =>
    cases s with
    | number m =>
      rcases List.mem_cons.1 hn with heq | hn
      · rw [CompressedStep.number.inj heq]
        exact h.1
      · exact ih h.2 hn
    | mark => exact ih h.2 (List.mem_of_ne_of_mem (by simp) hn)
    | unknown => exact ih h (List.mem_of_ne_of_mem (by simp) hn)

/-- Steps without marks can be written. -/
theorem writable_of_unmarked {steps : List CompressedStep} (hmark : .mark ∉ steps)
    (hnumber : ∀ n, .number n ∈ steps → 0 < n ∧ n ≤ maxNumber) (markable : Bool) :
    Writable markable steps := by
  induction steps generalizing markable with
  | nil => trivial
  | cons s steps ih =>
    have hrest := ih (fun h => hmark (.tail _ h)) (fun n h => hnumber n (.tail _ h))
    cases s with
    | number n => exact ⟨hnumber n (.head _), hrest true⟩
    | mark => exact absurd (.head _) hmark
    | unknown => exact hrest false

/-- Steps are read back from their letters. -/
theorem decodeFrom_flatMap_encode {steps : List CompressedStep} {markable : Bool}
    (h : Writable markable steps) :
    decodeFrom 0 markable (steps.flatMap CompressedStep.encode) = .ok steps := by
  induction steps generalizing markable with
  | nil => rfl
  | cons s steps ih =>
    rw [List.flatMap_cons]
    cases s with
    | number n =>
      obtain ⟨⟨hpos, hmax⟩, hrest⟩ := h
      rw [CompressedStep.encode, decodeFrom_encodeNumber hpos hmax, ih hrest]
      rfl
    | mark =>
      obtain ⟨hmarkable, hrest⟩ := h
      rw [CompressedStep.encode, List.singleton_append, decodeFrom_mark, if_pos hmarkable, ih hrest]
      rfl
    | unknown =>
      rw [CompressedStep.encode, List.singleton_append, decodeFrom_unknown, if_pos rfl, ih h]
      rfl

/-! ## Writing what was read -/

theorem encodeHigh_leading (high : Nat) {d : Nat} (hd : d < 5) :
    encodeHigh (5 * high + d + 1) = encodeHigh high ++ [UInt8.ofNat (0x55 + d)] := by
  have hdiv : (5 * high + d) / 5 = high := by omega
  have hmod : (5 * high + d) % 5 = d := by omega
  rw [encodeHigh, hdiv, hmod]

theorem encodeNumber_last (high : Nat) {d : Nat} (hd : d < 20) :
    encodeNumber (20 * high + d + 1) = encodeHigh high ++ [UInt8.ofNat (0x41 + d)] := by
  have hdiv : (20 * high + d) / 20 = high := by omega
  have hmod : (20 * high + d) % 20 = d := by omega
  rw [encodeNumber, Nat.add_sub_cancel, hdiv, hmod]

/-- Letters that can be read, after the leading digits read so far, are the letters of the steps.
Right after a number there are no leading digits. -/
theorem eq_flatMap_encode_of_decodeFrom {high : Nat} (hhigh : high ≤ maxNumber) {markable : Bool}
    {letters : Bytes} {steps : List CompressedStep} (hmarkable : markable → high = 0)
    (h : decodeFrom (.ofNat high) markable letters = .ok steps) :
    Writable markable steps ∧ encodeHigh high ++ letters = steps.flatMap CompressedStep.encode := by
  induction letters generalizing high markable steps with
  | nil =>
    rw [decodeFrom] at h
    simp only [ofNat_eq_zero_iff hhigh] at h
    split_ifs at h with hzero
    obtain rfl := Except.ok.inj h
    rw [hzero, encodeHigh]
    exact ⟨trivial, rfl⟩
  | cons b rest ih =>
    rcases letter_cases b with ⟨d, hd, rfl⟩ | ⟨d, hd, rfl⟩ | rfl | rfl | hbogus
    · rw [decodeFrom_last _ _ hhigh hd] at h
      split_ifs at h with hmax
      obtain ⟨steps', hrest, rfl⟩ := map_eq_ok_iff.1 h
      obtain ⟨hwritable, heq⟩ := ih (Nat.zero_le _) (fun _ => rfl) hrest
      rw [encodeHigh, List.nil_append] at heq
      refine ⟨⟨⟨Nat.succ_pos _, Nat.not_lt.1 hmax⟩, hwritable⟩, ?_⟩
      rw [List.flatMap_cons, CompressedStep.encode, encodeNumber_last high hd, ← heq,
        List.append_assoc, List.singleton_append]
    · rw [decodeFrom_leading _ _ hhigh hd] at h
      split_ifs at h with hmax
      obtain ⟨hwritable, heq⟩ := ih (Nat.not_lt.1 hmax) (by simp) h
      rw [encodeHigh_leading high hd, List.append_assoc, List.singleton_append] at heq
      exact ⟨hwritable.mono markable, heq⟩
    · rw [decodeFrom_mark] at h
      split_ifs at h with hm
      obtain ⟨steps', hrest, rfl⟩ := map_eq_ok_iff.1 h
      obtain ⟨hwritable, heq⟩ := ih hhigh (by simp) hrest
      rw [hmarkable hm, encodeHigh, List.nil_append] at heq
      rw [hmarkable hm, encodeHigh, List.nil_append, List.flatMap_cons, heq]
      exact ⟨⟨hm, hwritable⟩, rfl⟩
    · rw [decodeFrom_unknown] at h
      simp only [ofNat_eq_zero_iff hhigh] at h
      split_ifs at h with hzero
      obtain ⟨steps', hrest, rfl⟩ := map_eq_ok_iff.1 h
      obtain ⟨hwritable, heq⟩ := ih (Nat.zero_le _) (by simp) hrest
      rw [encodeHigh, List.nil_append] at heq
      rw [hzero, encodeHigh, List.nil_append, List.flatMap_cons, heq]
      exact ⟨hwritable, rfl⟩
    · rw [hbogus] at h
      cases h

theorem decodeLetters_eq_ok_iff {letters : Bytes} {steps : List CompressedStep} :
    decodeLetters letters = .ok steps ↔
      Writable false steps ∧ letters = steps.flatMap CompressedStep.encode := by
  constructor
  · intro h
    obtain ⟨hwritable, heq⟩ := eq_flatMap_encode_of_decodeFrom (Nat.zero_le _) (by simp) h
    rw [encodeHigh, List.nil_append] at heq
    exact ⟨hwritable, heq⟩
  · rintro ⟨hwritable, rfl⟩
    exact decodeFrom_flatMap_encode hwritable

/-! ## Numbers out of range -/

/-- A letter is refused whatever follows, or what follows is read after it. -/
theorem decodeFrom_cons_cases {high : Nat} (hhigh : high ≤ maxNumber) (markable : Bool) (b : UInt8) :
    (∃ err, ∀ rest, decodeFrom (.ofNat high) markable (b :: rest) = .error err) ∨
      ∃ high' markable' steps, high' ≤ maxNumber ∧
        ∀ rest, decodeFrom (.ofNat high) markable (b :: rest) =
          (decodeFrom (.ofNat high') markable' rest).map (steps ++ ·) := by
  rcases letter_cases b with ⟨d, hd, rfl⟩ | ⟨d, hd, rfl⟩ | rfl | rfl | hbogus
  · simp only [decodeFrom_last _ _ hhigh hd]
    split_ifs
    · exact .inl ⟨_, fun _ => rfl⟩
    · exact .inr ⟨0, _, [_], Nat.zero_le _, fun _ => rfl⟩
  · simp only [decodeFrom_leading _ _ hhigh hd]
    split_ifs with hmax
    · exact .inl ⟨_, fun _ => rfl⟩
    · refine .inr ⟨5 * high + d + 1, false, [], Nat.not_lt.1 hmax, fun rest => ?_⟩
      cases decodeFrom (.ofNat (5 * high + d + 1)) false rest <;> rfl
  · simp only [decodeFrom_mark]
    split_ifs
    · exact .inr ⟨high, _, [_], hhigh, fun _ => rfl⟩
    · exact .inl ⟨_, fun _ => rfl⟩
  · simp only [decodeFrom_unknown]
    split_ifs
    · exact .inr ⟨0, _, [_], Nat.zero_le _, fun _ => rfl⟩
    · exact .inl ⟨_, fun _ => rfl⟩
  · exact .inl ⟨_, hbogus _ _⟩

/-- Letters are refused whatever follows, or what follows is read after them. -/
theorem decodeFrom_append_cases {high : Nat} (hhigh : high ≤ maxNumber) (markable : Bool)
    (before : Bytes) :
    (∃ err, ∀ rest, decodeFrom (.ofNat high) markable (before ++ rest) = .error err) ∨
      ∃ high' markable' steps, high' ≤ maxNumber ∧
        ∀ rest, decodeFrom (.ofNat high) markable (before ++ rest) =
          (decodeFrom (.ofNat high') markable' rest).map (steps ++ ·) := by
  induction before generalizing high markable with
  | nil =>
    refine .inr ⟨high, markable, [], hhigh, fun rest => ?_⟩
    rw [List.nil_append]
    cases decodeFrom (.ofNat high) markable rest <;> rfl
  | cons b before ih =>
    simp only [List.cons_append]
    rcases decodeFrom_cons_cases hhigh markable b with
      ⟨err, herr⟩ | ⟨high', markable', steps, hhigh', heq⟩
    · exact .inl ⟨err, fun rest => herr _⟩
    · simp only [heq]
      rcases ih hhigh' markable' with ⟨err, herr⟩ | ⟨high'', markable'', steps', hhigh'', heq'⟩
      · refine .inl ⟨err, fun rest => ?_⟩
        rw [herr]
        rfl
      · refine .inr ⟨high'', markable'', steps ++ steps', hhigh'', fun rest => ?_⟩
        rw [heq']
        cases decodeFrom (.ofNat high'') markable'' rest with
        | error err => rfl
        | ok more => exact congrArg _ (List.append_assoc steps steps' more).symm

/-- A number out of range is refused wherever it stands, for its size if the letters in front of it
can be read. -/
theorem decodeLetters_of_lt {n : Nat} (hmax : maxNumber < n) (before after : Bytes) :
    ∃ err, decodeLetters (before ++ encodeNumber n ++ after) = .error err ∧
      ∀ steps, decodeLetters before = .ok steps → err = .overflow := by
  unfold decodeLetters
  rw [List.append_assoc]
  rcases decodeFrom_append_cases (Nat.zero_le _) false before with
    ⟨err, herr⟩ | ⟨high, markable, steps, hhigh, heq⟩
  · refine ⟨err, herr _, fun steps hsteps => ?_⟩
    rw [← List.append_nil before] at hsteps
    cases (herr []).symm.trans hsteps
  · refine ⟨.overflow, ?_, fun _ _ => rfl⟩
    refine (heq _).trans ?_
    rw [decodeFrom_encodeNumber_of_lt hmax hhigh]
    rfl

/-! ## Steps as integers -/

/-- A step as an integer: zero is a mark, and minus one is an unknown step. -/
def CompressedStep.toInt : CompressedStep → Int
  | .number n => n
  | .mark => 0
  | .unknown => -1

/-- The step for an integer. -/
def CompressedStep.ofInt (n : Int) : CompressedStep :=
  if n < 0 then .unknown else if n = 0 then .mark else .number n.toNat

theorem CompressedStep.ofInt_natCast {n : Nat} (h : 0 < n) : ofInt n = .number n := by
  rw [ofInt, if_neg (by omega), if_neg (by omega), Int.toNat_natCast]

theorem CompressedStep.toInt_ofInt {n : Int} (h : -1 ≤ n) : (ofInt n).toInt = n := by
  unfold ofInt
  split_ifs <;> simp only [toInt] <;> omega

theorem CompressedStep.neg_one_le_toInt (s : CompressedStep) : -1 ≤ s.toInt := by
  cases s <;> simp only [toInt] <;> omega

/-- Integers name the steps that can be written. -/
theorem Writable.map_ofInt_toInt {steps : List CompressedStep} {markable : Bool}
    (h : Writable markable steps) :
    (steps.map CompressedStep.toInt).map CompressedStep.ofInt = steps := by
  induction steps generalizing markable with
  | nil => rfl
  | cons s steps ih =>
    rw [List.map_cons, List.map_cons]
    cases s with
    | number n => rw [CompressedStep.toInt, CompressedStep.ofInt_natCast h.1.1, ih h.2]
    | mark => exact congrArg _ (ih h.2)
    | unknown => exact congrArg _ (ih h)

/-- Every zero stands right after a positive number, which the flag says of what is in front of the
list. -/
def MarksFollow (markable : Bool) (nums : List Int) : Prop :=
  ∀ i : Nat, nums[i]? = some 0 →
    (i = 0 ∧ markable) ∨ ∃ j n, i = j + 1 ∧ nums[j]? = some n ∧ 0 < n

theorem marksFollow_cons_iff {markable : Bool} {n : Int} {nums : List Int} :
    MarksFollow markable (n :: nums) ↔ (n = 0 → markable) ∧ MarksFollow (0 < n) nums := by
  constructor
  · intro h
    refine ⟨fun hn => ?_, fun i hi => ?_⟩
    · rcases h 0 (by rw [hn]; rfl) with ⟨-, hm⟩ | ⟨j, _, hj, -⟩
      · exact hm
      · cases hj
    · rcases h (i + 1) hi with ⟨hzero, -⟩ | ⟨j, m, hj, hm, hpos⟩
      · cases hzero
      · obtain rfl : i = j := Nat.succ.inj hj
        cases i with
        | zero => exact .inl ⟨rfl, by simpa using (Option.some.inj hm) ▸ hpos⟩
        | succ i => exact .inr ⟨i, m, rfl, hm, hpos⟩
  · rintro ⟨hn, h⟩ i hi
    cases i with
    | zero => exact .inl ⟨rfl, hn (Option.some.inj hi)⟩
    | succ i =>
      rcases h i hi with ⟨rfl, hpos⟩ | ⟨j, m, rfl, hm, hpos⟩
      · exact .inr ⟨0, n, rfl, rfl, of_decide_eq_true hpos⟩
      · exact .inr ⟨j + 1, m, rfl, hm, hpos⟩

theorem writable_map_ofInt_iff {nums : List Int} (h : ∀ n ∈ nums, -1 ≤ n) {markable : Bool} :
    Writable markable (nums.map CompressedStep.ofInt) ↔
      (∀ n ∈ nums, n ≤ maxNumber) ∧ MarksFollow markable nums := by
  induction nums generalizing markable with
  | nil => simp [Writable, MarksFollow]
  | cons n nums ih =>
    have hrest : ∀ {m}, Writable m (nums.map CompressedStep.ofInt) ↔
        (∀ n ∈ nums, n ≤ maxNumber) ∧ MarksFollow m nums :=
      ih fun k hk => h k (.tail _ hk)
    rw [List.map_cons, marksFollow_cons_iff, List.forall_mem_cons]
    obtain rfl | rfl | ⟨k, rfl, hk⟩ : n = -1 ∨ n = 0 ∨ ∃ k : Nat, n = k ∧ 0 < k := by
      have hn : -1 ≤ n := h n (.head _)
      by_cases hpos : 0 < n
      · exact .inr (.inr ⟨n.toNat, by omega, by omega⟩)
      · omega
    · change Writable false _ ↔ _
      rw [hrest]
      simp
    · change markable ∧ Writable false _ ↔ _
      rw [hrest]
      simp [and_left_comm]
    · rw [CompressedStep.ofInt_natCast hk, Writable, hrest]
      have hne : k ≠ 0 := Nat.ne_of_gt hk
      simp [hk, hne, and_assoc]

/-- Reading letters is the exact inverse of writing numbers. Letters are read as a list of numbers
when the numbers are in range, each zero stands right after a positive number, and the letters are
those that the numbers are written with. So other letters have another reading or none, and letters
for a number out of range have none. -/
theorem decodeLetters_inverse :
    (∀ (letters : Bytes) (nums : List Int),
      (decodeLetters letters).map (List.map CompressedStep.toInt) = .ok nums ↔
        (∀ n ∈ nums, -1 ≤ n ∧ n ≤ maxNumber) ∧
        (∀ i : Nat, nums[i]? = some 0 → ∃ j n, i = j + 1 ∧ nums[j]? = some n ∧ 0 < n) ∧
        letters = nums.flatMap fun n => (CompressedStep.ofInt n).encode) ∧
    (∀ (letters letters' : Bytes) (steps : List CompressedStep),
      decodeLetters letters = .ok steps → decodeLetters letters' = .ok steps →
        letters = letters') ∧
    ∀ (before after : Bytes) (n : Nat), maxNumber < n →
      ∃ err, decodeLetters (before ++ encodeNumber n ++ after) = .error err ∧
        ∀ steps, decodeLetters before = .ok steps → err = .overflow := by
  refine ⟨fun letters nums => ?_, fun letters letters' steps h h' => ?_,
    fun before after n hmax => decodeLetters_of_lt hmax before after⟩
  · have hmarks : MarksFollow false nums ↔
        ∀ i : Nat, nums[i]? = some 0 → ∃ j n, i = j + 1 ∧ nums[j]? = some n ∧ 0 < n := by
      simp [MarksFollow]
    have hencode : (nums.flatMap fun n => (CompressedStep.ofInt n).encode) =
        (nums.map CompressedStep.ofInt).flatMap CompressedStep.encode :=
      (List.flatMap_map _ _ _).symm
    rw [hencode, ← hmarks]
    constructor
    · intro h
      obtain ⟨steps, hsteps, rfl⟩ := map_eq_ok_iff.1 h
      obtain ⟨hwritable, hletters⟩ := decodeLetters_eq_ok_iff.1 hsteps
      have hlow : ∀ n ∈ steps.map CompressedStep.toInt, -1 ≤ n :=
        List.forall_mem_map.2 fun s _ => s.neg_one_le_toInt
      have hround := hwritable.map_ofInt_toInt
      rw [← hround, writable_map_ofInt_iff hlow] at hwritable
      rw [hround]
      exact ⟨fun n hn => ⟨hlow n hn, hwritable.1 n hn⟩, hwritable.2, hletters⟩
    · rintro ⟨hrange, hfollow, hletters⟩
      have hwritable := (writable_map_ofInt_iff fun n hn => (hrange n hn).1).2
        ⟨fun n hn => (hrange n hn).2, hfollow⟩
      rw [decodeLetters_eq_ok_iff.2 ⟨hwritable, hletters⟩]
      have hround : (nums.map CompressedStep.ofInt).map CompressedStep.toInt = nums := by
        rw [List.map_map]
        exact (List.map_congr_left fun n hn =>
          CompressedStep.toInt_ofInt (hrange n hn).1).trans (List.map_id _)
      exact congrArg _ hround
  · rw [(decodeLetters_eq_ok_iff.1 h).2, (decodeLetters_eq_ok_iff.1 h').2]

/-- The greatest number can be written and read, and the next one cannot be read. -/
theorem decodeLetters_greatest :
    utf8 "UVWWUYWVVXVWWVYWWVUYUUYUVYGZ?" =
        ([(maxNumber : Int), 0, -1].flatMap fun n => (CompressedStep.ofInt n).encode) ∧
      decodeLetters (utf8 "BZ" ++ encodeNumber (maxNumber + 1) ++ utf8 "Z") = .error .overflow := by
  have hread : (decodeLetters (utf8 "UVWWUYWVVXVWWVYWWVUYUUYUVYGZ?")).map
      (List.map CompressedStep.toInt) = .ok [(maxNumber : Int), 0, -1] := rfl
  have hbefore : decodeLetters (utf8 "BZ") = .ok [.number 2, .mark] := rfl
  obtain ⟨err, herr, hover⟩ :=
    decodeLetters_inverse.2.2 (utf8 "BZ") (utf8 "Z") (maxNumber + 1) (Nat.lt_succ_self _)
  rw [hover _ hbefore] at herr
  exact ⟨((decodeLetters_inverse.1 _ _).1 hread).2.2, herr⟩

end Metamath
