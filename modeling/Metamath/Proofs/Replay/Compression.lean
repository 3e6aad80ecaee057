import Metamath.Proofs.Letters
import Metamath.Proofs.Replay.Basic

/-!
# Compressing proofs

A normal proof is compressed by numbering its steps: first the mandatory hypotheses of the theorem,
then the other labels in the order of their first use (`usedLabels`). The two proofs take the same
steps one by one, so they get the same verdict, whether the proof is right or not
(`checkCompressed_compress`).
-/

namespace Metamath

/-- The labels that a proof uses besides the mandatory hypotheses, in the order of their first
use. -/
def usedLabels (thm : Assertion) (steps : List Label) : List Label :=
  (steps.filter fun l => l ≠ "?" ∧ l ∉ thm.hypotheses).eraseDups

/-- The number of a label: its place among the mandatory hypotheses and the labels of the proof,
counted from 1. -/
def labelNumber (thm : Assertion) (labels : List Label) (l : Label) : Nat :=
  (thm.hypotheses ++ labels).idxOf l + 1

/-- The compressed form of a step. -/
def compressStep (thm : Assertion) (labels : List Label) (l : Label) : CompressedStep :=
  if l = "?" then .unknown else .number (labelNumber thm labels l)

/-- The letters of a proof whose labels are numbered. -/
def compressLetters (thm : Assertion) (labels steps : List Label) : Bytes :=
  (steps.map (compressStep thm labels)).flatMap CompressedStep.encode

section Compress

variable {db : Database} {thm : Assertion} {labels steps : List Label}

theorem mem_usedLabels_iff {l : Label} :
    l ∈ usedLabels thm steps ↔ l ∈ steps ∧ l ≠ "?" ∧ l ∉ thm.hypotheses := by
  simp [usedLabels]

/-- Every step that is not unknown has a number. -/
theorem mem_numbered {l : Label} (hl : l ∈ steps) (hu : l ≠ "?") :
    l ∈ thm.hypotheses ++ usedLabels thm steps := by
  rw [List.mem_append, mem_usedLabels_iff]
  by_cases hm : l ∈ thm.hypotheses
  · exact .inl hm
  · exact .inr ⟨hl, hu, hm⟩

theorem decodeLetters_compressLetters
    (hmax : ∀ l ∈ steps, l ≠ "?" → labelNumber thm labels l ≤ maxNumber) :
    decodeLetters (compressLetters thm labels steps) = .ok (steps.map (compressStep thm labels)) := by
  refine decodeFrom_flatMap_encode (writable_of_unmarked (fun hmark => ?_) (fun n hn => ?_) false)
  · obtain ⟨l, -, hl⟩ := List.mem_map.1 hmark
    unfold compressStep at hl
    split_ifs at hl
  · obtain ⟨l, hl, hn⟩ := List.mem_map.1 hn
    unfold compressStep at hn
    split_ifs at hn with hu
    obtain rfl := CompressedStep.number.inj hn
    exact ⟨Nat.succ_pos _, hmax l hl hu⟩

/-- The compressed form of a step does what the step does. -/
theorem CompressedReplay.step_compressStep (hdb : db.Loaded) (hthm : thm ∈ db.assertions)
    (hactive : ∀ l ∈ thm.hypotheses, (db.activeHypothesis? l).isSome) {l : Label}
    (hl : l ≠ "?" → l ∈ thm.hypotheses ++ labels) (c : CompressedReplay) :
    c.step db thm labels (compressStep thm labels l) =
      (c.replay.step db thm l).map fun r => { c with replay := r } := by
  unfold compressStep
  split_ifs with hu
  · rw [hu]
    rfl
  · refine step_number_of_label hdb hthm hactive c ?_
    rw [labelNumber, Nat.add_sub_cancel, List.getElem?_idxOf (hl hu)]

theorem CompressedReplay.runSteps_map_compressStep (hdb : db.Loaded) (hthm : thm ∈ db.assertions)
    (hactive : ∀ l ∈ thm.hypotheses, (db.activeHypothesis? l).isSome)
    (hl : ∀ l ∈ steps, l ≠ "?" → l ∈ thm.hypotheses ++ labels) (taken : Nat)
    (c : CompressedReplay) :
    runSteps (step db thm labels) taken c (steps.map (compressStep thm labels)) =
      ({ c with replay := (runSteps (Replay.step db thm) taken c.replay steps).1 },
        (runSteps (Replay.step db thm) taken c.replay steps).2) := by
  induction steps generalizing taken c with
  | nil => rfl
  | cons l steps ih =>
    rw [List.map_cons, runSteps, runSteps,
      step_compressStep hdb hthm hactive (hl l (.head _)) c]
    cases c.replay.step db thm l with
    | error e => rfl
    | ok r => exact ih (fun l' hl' => hl l' (.tail _ hl')) _ { c with replay := r }

end Compress

/-- A proof and its compressed form get the same verdict, with the same error after the same number
of steps if there is one. -/
theorem checkCompressed_compress {db : Database} {thm : Assertion} (hdb : db.Loaded)
    (hthm : thm ∈ db.assertions)
    (hactive : ∀ l ∈ thm.hypotheses, (db.activeHypothesis? l).isSome) (steps : List Label)
    (hmax : ∀ l ∈ steps, l ≠ "?" → labelNumber thm (usedLabels thm steps) l ≤ maxNumber) :
    checkCompressed db thm (usedLabels thm steps)
        (compressLetters thm (usedLabels thm steps) steps) =
      checkNormal db thm steps := by
  rw [checkCompressed, decodeLetters_compressLetters hmax]
  dsimp only
  rw [CompressedReplay.runSteps_map_compressStep hdb hthm hactive (fun l hl => mem_numbered hl),
    List.length_map]
  rfl

theorem twice_compressed : Sample.db.Loaded ∧ Sample.twice ∈ Sample.db.assertions ∧
    (∀ l ∈ Sample.twice.hypotheses, (Sample.db.activeHypothesis? l).isSome) ∧
    usedLabels Sample.twice ["wq", "wp", "wi", "?", "hyp", "once", "min"] = ["wi", "once", "min"] ∧
    compressLetters Sample.twice ["wi", "once", "min"]
      ["wq", "wp", "wi", "?", "hyp", "once", "min"] = utf8 "BAD?CEF" ∧
    checkCompressed Sample.db Sample.twice ["wi", "once", "min"] (utf8 "BAD?CEF") =
      checkNormal Sample.db Sample.twice ["wq", "wp", "wi", "?", "hyp", "once", "min"] := by
  have hmem : Sample.twice ∈ Sample.db.assertions := by decide
  have hactive : ∀ l ∈ Sample.twice.hypotheses, (Sample.db.activeHypothesis? l).isSome := by decide
  have hlabels : usedLabels Sample.twice ["wq", "wp", "wi", "?", "hyp", "once", "min"] =
      ["wi", "once", "min"] := by decide +kernel
  have hletters : compressLetters Sample.twice ["wi", "once", "min"]
      ["wq", "wp", "wi", "?", "hyp", "once", "min"] = utf8 "BAD?CEF" := by decide +kernel
  refine ⟨Sample.loaded, hmem, hactive, hlabels, hletters, ?_⟩
  have h := checkCompressed_compress Sample.loaded hmem hactive
    ["wq", "wp", "wi", "?", "hyp", "once", "min"] (by decide +kernel)
  rwa [hlabels, hletters] at h

end Metamath
