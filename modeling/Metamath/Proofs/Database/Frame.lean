import Metamath.Proofs.Database.Declaration

/-!
# Frames

Hypotheses are `WellScoped` when each uses only what stands before it, and an assertion is `Framed`
by hypotheses that are the records of its labels and bind all its variables. The second part says
what a frame is computed to: which hypotheses (`floating_mem_mandatoryHypotheses_iff`,
`essential_mem_mandatoryHypotheses_iff`) and which pairs of variables (`pair_mem_mandatoryPairs`) it
holds. Groups of different variables are sorted strictly (`pairwise_sortSymbols`), so the pairs out
of them have the lesser variable first.
-/

namespace Metamath

/-! ## Hypotheses in order -/

/-- Hypotheses in an order in which they can be declared. A floating one has a constant for a
typecode, and an essential one is over constants and variables that are known or stand before it. -/
def WellScoped (constants known : List Symbol) : List Hypothesis → Prop
  | [] => True
  | .floating _ typecode v :: hs => typecode ∈ constants ∧ WellScoped constants (v :: known) hs
  | .essential _ e :: hs => e.Over constants known ∧ WellScoped constants known hs

namespace WellScoped

variable {constants constants' known known' : List Symbol} {hs hs' : List Hypothesis}

theorem mono (h : WellScoped constants known hs) (hc : constants ⊆ constants')
    (hk : known ⊆ known') : WellScoped constants' known' hs := by
  induction hs generalizing known known' with
  | nil => trivial
  | cons h₀ hs ih =>
    cases h₀ with
    | floating l typecode v => exact ⟨hc h.1, ih h.2 (List.cons_subset_cons v hk)⟩
    | essential l e => exact ⟨h.1.mono hc fun s _ hs => .inr (hk hs), ih h.2 hk⟩

theorem append_iff : WellScoped constants known (hs ++ hs') ↔
    WellScoped constants known hs ∧ WellScoped constants (subjects hs ++ known) hs' := by
  induction hs generalizing known with
  | nil => simp [WellScoped]
  | cons h₀ hs ih =>
    cases h₀ with
    | floating l typecode v =>
      have hv : WellScoped constants (subjects hs ++ v :: known) hs' ↔
          WellScoped constants (v :: subjects hs ++ known) hs' :=
        ⟨fun h => h.mono (List.Subset.refl _) (by simp),
          fun h => h.mono (List.Subset.refl _) (by simp)⟩
      simp only [List.cons_append, WellScoped, ih, hv, subjects_floating, and_assoc]
    | essential l e => simp only [List.cons_append, WellScoped, ih, subjects_essential, and_assoc]

/-- Every hypothesis is over the constants and the variables that the whole list binds. -/
theorem expr_over (h : WellScoped constants [] hs) {h₀ : Hypothesis} (hh : h₀ ∈ hs) :
    h₀.expr.Over constants (subjects hs) := by
  obtain ⟨before, rest, rfl⟩ := List.append_of_mem hh
  obtain ⟨-, h₁⟩ := append_iff.1 h
  rw [List.append_nil] at h₁
  cases h₀ with
  | floating l typecode v => exact ⟨h₁.1, by simp⟩
  | essential l e =>
    refine h₁.1.mono (List.Subset.refl _) fun s _ hs => .inr ?_
    rw [subjects_append]
    exact List.mem_append_left _ hs

/-- Floating hypotheses of variables that no essential hypothesis uses can be left out. -/
theorem filter {p : Hypothesis → Bool} {used : List Symbol} (h : WellScoped constants known hs)
    (he : ∀ l e, p (.essential l e)) (hf : ∀ l typecode v, p (.floating l typecode v) ↔ v ∈ used)
    (hu : ∀ l e, .essential l e ∈ hs → ∀ s ∈ e, s ∈ constants ∨ s ∈ used)
    (hk : ∀ s ∈ known, s ∈ used → s ∈ known') : WellScoped constants known' (hs.filter p) := by
  induction hs generalizing known known' with
  | nil => trivial
  | cons h₀ hs ih =>
    have hu' : ∀ l e, .essential l e ∈ hs → ∀ s ∈ e, s ∈ constants ∨ s ∈ used :=
      fun l e he => hu l e (List.mem_cons_of_mem _ he)
    cases h₀ with
    | floating l typecode v =>
      by_cases hv : v ∈ used
      · rw [List.filter_cons_of_pos ((hf l typecode v).2 hv)]
        refine ⟨h.1, ih h.2 hu' fun s hs hsu => ?_⟩
        rcases List.mem_cons.1 hs with rfl | hs
        · exact List.mem_cons_self
        · exact List.mem_cons_of_mem _ (hk s hs hsu)
      · rw [List.filter_cons_of_neg (mt (hf l typecode v).1 hv)]
        refine ih h.2 hu' fun s hs hsu => ?_
        rcases List.mem_cons.1 hs with rfl | hs
        · exact absurd hsu hv
        · exact hk s hs hsu
    | essential l e =>
      rw [List.filter_cons_of_pos (he l e)]
      refine ⟨h.1.mono (List.Subset.refl _) fun s hs hsk => ?_, ih h.2 hu' hk⟩
      exact (hu l e List.mem_cons_self s hs).imp_right (hk s hsk)

end WellScoped

/-! ## Closed frames -/

/-- The hypotheses are the records of an assertion's labels, and they bind all its variables. -/
structure Database.Framed (db : Database) (a : Assertion) (hs : List Hypothesis) : Prop where
  records : a.hypotheses.map db.hypothesis? = hs.map some
  wellScoped : WellScoped db.constants [] hs
  nodup_subjects : (subjects hs).Nodup
  subjects_subset : subjects hs ⊆ db.vars
  expr_over : a.expr.Over db.constants (subjects hs)
  disjoint_mem : ∀ p ∈ a.disjoint, p.x ∈ subjects hs ∧ p.y ∈ subjects hs

namespace Database

variable {db db' : Database}

theorem Framed.hypothesis?_mem {a : Assertion} {hs : List Hypothesis} (h : db.Framed a hs)
    {l : Label} (hl : l ∈ a.hypotheses) : ∃ h₀ ∈ hs, db.hypothesis? l = some h₀ := by
  have hm : db.hypothesis? l ∈ hs.map some := by
    rw [← h.records]
    exact List.mem_map_of_mem hl
  obtain ⟨h₀, hh, he⟩ := List.mem_map.1 hm
  exact ⟨h₀, hh, he.symm⟩

/-- A frame stays closed while the tables grow. -/
theorem Framed.mono {a : Assertion} {hs : List Hypothesis} (h : db.Framed a hs)
    (hc : db.constants ⊆ db'.constants) (hv : db.vars ⊆ db'.vars)
    (hh : ∀ l h, db.hypothesis? l = some h → db'.hypothesis? l = some h) : db'.Framed a hs where
  records := by
    rw [← h.records]
    refine List.map_congr_left fun l hl => ?_
    obtain ⟨h₀, -, he⟩ := h.hypothesis?_mem hl
    rw [he, hh l h₀ he]
  wellScoped := h.wellScoped.mono hc (List.Subset.refl _)
  nodup_subjects := h.nodup_subjects
  subjects_subset := List.Subset.trans h.subjects_subset hv
  expr_over := h.expr_over.mono hc fun _ _ hs => .inr hs
  disjoint_mem := h.disjoint_mem

/-! ## Computed frames -/

theorem mem_mandatoryVariables_iff {e : Expr} {v : Symbol} :
    v ∈ db.mandatoryVariables e ↔ v ∈ db.vars ∧
      (v ∈ e ∨ ∃ l e', .essential l e' ∈ db.activeHypotheses ∧ v ∈ e') := by
  simp only [mandatoryVariables, List.mem_filter, isVariable_iff, List.flatten_cons,
    List.mem_append, List.mem_flatten]
  rw [and_comm]
  refine and_congr_right fun _ => or_congr_right ⟨?_, ?_⟩
  · rintro ⟨e', he, hv⟩
    obtain ⟨h, hh, rfl⟩ := List.mem_map.1 he
    obtain ⟨hh, hf⟩ := List.mem_filter.1 hh
    cases h with
    | floating l typecode u => cases hf
    | essential l e' => exact ⟨l, e', hh, hv⟩
  · rintro ⟨l, e', hh, hv⟩
    exact ⟨e', List.mem_map.2 ⟨_, List.mem_filter.2 ⟨hh, rfl⟩, rfl⟩, hv⟩

theorem floating_mem_mandatoryHypotheses_iff {used : List Symbol} {l : Label}
    {typecode v : Symbol} : .floating l typecode v ∈ db.mandatoryHypotheses used ↔
      .floating l typecode v ∈ db.activeHypotheses ∧ v ∈ used := by
  simp [mandatoryHypotheses]

theorem essential_mem_mandatoryHypotheses_iff {used : List Symbol} {l : Label} {e : Expr} :
    .essential l e ∈ db.mandatoryHypotheses used ↔ .essential l e ∈ db.activeHypotheses := by
  simp [mandatoryHypotheses]

theorem mem_subjects_mandatoryHypotheses_iff {used : List Symbol} {v : Symbol} :
    v ∈ subjects (db.mandatoryHypotheses used) ↔
      v ∈ subjects db.activeHypotheses ∧ v ∈ used := by
  simp only [mem_subjects_iff, floating_mem_mandatoryHypotheses_iff]
  constructor
  · rintro ⟨l, typecode, hh, hv⟩
    exact ⟨⟨l, typecode, hh⟩, hv⟩
  · rintro ⟨⟨l, typecode, hh⟩, hv⟩
    exact ⟨l, typecode, hh, hv⟩

theorem mandatoryHypotheses_sublist (db : Database) (used : List Symbol) :
    (db.mandatoryHypotheses used).Sublist db.activeHypotheses :=
  List.filter_sublist

end Database

/-! ## Sorted symbols -/

theorem insertSorted_perm (s : Symbol) (l : List Symbol) : (insertSorted s l).Perm (s :: l) := by
  induction l with
  | nil => exact .refl _
  | cons t rest ih =>
    rw [insertSorted]
    split_ifs
    · exact (ih.cons t).trans (.swap s t rest)
    · exact .refl _

theorem sortSymbols_perm (l : List Symbol) : (sortSymbols l).Perm l := by
  induction l with
  | nil => exact .refl _
  | cons s rest ih => exact (insertSorted_perm s _).trans (ih.cons s)

theorem pairwise_insertSorted {s : Symbol} {l : List Symbol} (hl : l.Pairwise (· < ·))
    (hs : s ∉ l) : (insertSorted s l).Pairwise (· < ·) := by
  induction l with
  | nil => exact List.pairwise_singleton _ _
  | cons t rest ih =>
    obtain ⟨ht, hrest⟩ := List.pairwise_cons.1 hl
    obtain ⟨hst, hs⟩ := not_or.1 (mt List.mem_cons.2 hs)
    rw [insertSorted]
    split_ifs with hlt
    · refine List.pairwise_cons.2 ⟨fun u hu => ?_, ih hrest hs⟩
      rcases List.mem_cons.1 ((insertSorted_perm s rest).mem_iff.1 hu) with rfl | hu
      · exact hlt
      · exact ht u hu
    · have hst' : s < t := Std.lt_of_le_of_ne (String.not_lt.1 hlt) hst
      refine List.pairwise_cons.2 ⟨fun u hu => ?_, hl⟩
      rcases List.mem_cons.1 hu with rfl | hu
      · exact hst'
      · exact String.lt_trans hst' (ht u hu)

theorem pairwise_sortSymbols {l : List Symbol} (h : l.Nodup) :
    (sortSymbols l).Pairwise (· < ·) := by
  induction l with
  | nil => exact List.Pairwise.nil
  | cons s rest ih =>
    obtain ⟨hs, hrest⟩ := List.nodup_cons.1 h
    exact pairwise_insertSorted (ih hrest) (mt (sortSymbols_perm rest).mem_iff.1 hs)

/-! ## Pairs -/

theorem mem_of_mem_pairsOf {l : List Symbol} {p : DisjointPair} (h : p ∈ pairsOf l) :
    p.x ∈ l ∧ p.y ∈ l := by
  induction l with
  | nil => cases h
  | cons x rest ih =>
    rcases List.mem_append.1 h with h | h
    · obtain ⟨y, hy, rfl⟩ := List.mem_map.1 h
      exact ⟨List.mem_cons_self, List.mem_cons_of_mem _ hy⟩
    · exact (ih h).imp (List.mem_cons_of_mem _) (List.mem_cons_of_mem _)

theorem lt_of_mem_pairsOf {l : List Symbol} (hl : l.Pairwise (· < ·)) {p : DisjointPair}
    (h : p ∈ pairsOf l) : p.x < p.y := by
  induction l with
  | nil => cases h
  | cons x rest ih =>
    obtain ⟨hx, hrest⟩ := List.pairwise_cons.1 hl
    rcases List.mem_append.1 h with h | h
    · obtain ⟨y, hy, rfl⟩ := List.mem_map.1 h
      exact hx y hy
    · exact ih hrest h

/-- Two members of a list make a pair, in the order in which they stand. -/
theorem pair_mem_pairsOf {l : List Symbol} {u v : Symbol} (hu : u ∈ l) (hv : v ∈ l) (h : u ≠ v) :
    ⟨u, v⟩ ∈ pairsOf l ∨ ⟨v, u⟩ ∈ pairsOf l := by
  induction l with
  | nil => cases hu
  | cons x rest ih =>
    simp only [pairsOf, List.mem_append]
    rcases List.mem_cons.1 hu with rfl | hu' <;> rcases List.mem_cons.1 hv with rfl | hv'
    · exact absurd rfl h
    · exact .inl (.inl (List.mem_map_of_mem hv'))
    · exact .inr (.inl (List.mem_map_of_mem hu'))
    · exact (ih hu' hv').imp .inr .inr

namespace Database

variable {db : Database} {used : List Symbol}

theorem mem_used_of_mem_mandatoryPairs {p : DisjointPair} (h : p ∈ db.mandatoryPairs used) :
    p.x ∈ used ∧ p.y ∈ used := by
  simp only [mandatoryPairs, List.mem_eraseDups, List.mem_flatMap] at h
  obtain ⟨group, -, hp⟩ := h
  have hm := mem_of_mem_pairsOf hp
  simp only [List.mem_filter, List.contains_iff_mem] at hm
  exact ⟨hm.1.2, hm.2.2⟩

/-- Used variables that are declared disjoint make a pair of the frame. -/
theorem pair_mem_mandatoryPairs {u v : Symbol} (h : db.isDisjoint u v) (hu : u ∈ used)
    (hv : v ∈ used) : ⟨u, v⟩ ∈ db.mandatoryPairs used ∨ ⟨v, u⟩ ∈ db.mandatoryPairs used := by
  simp only [isDisjoint, Bool.and_eq_true, bne_iff_ne, List.any_eq_true, List.contains_iff_mem] at h
  obtain ⟨hne, scope, hs, group, hg, hgu, hgv⟩ := h
  have hmem : ∀ p, p ∈ pairsOf (group.filter used.contains) → p ∈ db.mandatoryPairs used := by
    intro p hp
    simp only [mandatoryPairs, List.mem_eraseDups, List.mem_flatMap]
    exact ⟨group, ⟨scope, hs, hg⟩, hp⟩
  have hfilter : ∀ w, w ∈ group → w ∈ used → w ∈ group.filter used.contains := fun w hw hw' =>
    List.mem_filter.2 ⟨hw, List.contains_iff_mem.2 hw'⟩
  exact (pair_mem_pairsOf (hfilter u hgu hu) (hfilter v hgv hv) hne).imp (hmem _) (hmem _)

end Database

end Metamath
