import Mathlib.Data.List.Nodup
import Metamath.Pool

/-!
# Schedules of a pool

A `Schedule` makes moves in any order that the pool allows. As long as no job that is left alone
breaks off, every job keeps its slot and only its own result is put there (`Orderly`). So it does
not matter which schedule a pool follows: it comes to an end after two moves for each job, and then
it has the results in the order of the jobs (`Orderly.schedule`, `Orderly.outcome`).
-/

namespace Metamath.Pool

variable {α β ε : Type} {limit : Nat} {f : Option Nat → α → Except ε β}

/-- Moves that are made one after the other. -/
inductive Schedule (limit : Nat) (f : Option Nat → α → Except ε β) :
    Pool α β ε → List Move → Pool α β ε → Prop
  | nil {p : Pool α β ε} : Schedule limit f p [] p
  | cons {p q r : Pool α β ε} {m : Move} {ms : List Move} (h : p.move? limit f m = some q)
      (rest : Schedule limit f q ms r) : Schedule limit f p (m :: ms) r

/-- The jobs that have not ended. -/
def pending (p : Pool α β ε) : List (Nat × α) :=
  p.running ++ p.waiting

/-- What holds of a pool for some jobs that no one disturbs: a job is waiting, running, or has its
result in its slot. -/
structure Orderly (jobs : List α) (result : α → β) (p : Pool α β ε) : Prop where
  broken : p.broken = none
  length : p.slots.length = jobs.length
  nodup : (p.pending.map Prod.fst).Nodup
  job : ∀ i a, (i, a) ∈ p.pending → jobs[i]? = some a
  slot : ∀ i a, jobs[i]? = some a → (i, a) ∈ p.pending ∨ p.slots[i]? = some (some (result a))

/-! ## The moves of an orderly pool -/

theorem length_filter_of_nodup {l : List (Nat × α)} {slot : Nat} {a : α}
    (hl : (l.map Prod.fst).Nodup) (h : (slot, a) ∈ l) :
    (l.filter (·.1 != slot)).length + 1 = l.length := by
  induction l with
  | nil => cases h
  | cons x l ih =>
    rw [List.map_cons, List.nodup_cons] at hl
    rcases List.mem_cons.1 h with rfl | h
    · have hrest : l.filter (·.1 != slot) = l := by
        refine List.filter_eq_self.2 fun y hy => ?_
        have hne : y.1 ≠ slot := fun heq => hl.1 (List.mem_map.2 ⟨y, hy, heq⟩)
        simpa using hne
      simp [hrest]
    · have hne : x.1 ≠ slot := fun heq => hl.1 (List.mem_map.2 ⟨_, h, heq.symm⟩)
      simp [hne, ih hl.2 h]

namespace Orderly

variable {jobs : List α} {result : α → β} {p q : Pool α β ε}

theorem ofJobs (jobs : List α) (result : α → β) : Orderly jobs result (ofJobs jobs : Pool α β ε) where
  broken := rfl
  length := by simp [Pool.ofJobs]
  nodup := by
    have hslots : (Pool.ofJobs jobs : Pool α β ε).pending.map Prod.fst =
        List.range jobs.length := by
      simp [pending, Pool.ofJobs, Function.comp_def, List.range_eq_range', ← List.zipIdx_map_snd]
    rw [hslots]
    exact List.nodup_range
  job i a h := by
    simp only [pending, Pool.ofJobs, List.nil_append, List.mem_map] at h
    obtain ⟨⟨a', i'⟩, hmem, heq⟩ := h
    cases heq
    exact List.mk_mem_zipIdx_iff_getElem?.1 hmem
  slot i a h := by
    refine .inl ?_
    simp only [pending, Pool.ofJobs, List.nil_append, List.mem_map]
    exact ⟨(a, i), List.mk_mem_zipIdx_iff_getElem?.2 h, rfl⟩

/-- The end of a running job takes it, and no other, from those that are pending. -/
theorem pending_settle (h : Orderly jobs result p) {slot : Nat} {a : α}
    (ha : (slot, a) ∈ p.running) (b : β) :
    (p.settle slot (.ok b)).pending = p.pending.filter (·.1 != slot) := by
  have hwaiting : p.waiting.filter (·.1 != slot) = p.waiting := by
    refine List.filter_eq_self.2 fun x hx => ?_
    have hnodup := h.nodup
    rw [pending, List.map_append, List.nodup_append] at hnodup
    have hne : slot ≠ x.1 :=
      hnodup.2.2 _ (List.mem_map_of_mem ha) _ (List.mem_map_of_mem hx)
    simpa using hne.symm
  rw [pending, pending, List.filter_append, hwaiting]
  rfl

theorem settle (h : Orderly jobs result p) {slot : Nat} {a : α} (ha : (slot, a) ∈ p.running) :
    Orderly jobs result (p.settle slot (.ok (result a))) := by
  have hpending := h.pending_settle ha (result a)
  have hjob : jobs[slot]? = some a := h.job slot a (List.mem_append_left _ ha)
  have hslot : slot < p.slots.length := by
    rw [h.length]
    exact (List.getElem?_eq_some_iff.1 hjob).1
  refine ⟨h.broken, ?_, ?_, ?_, ?_⟩
  · simpa [Pool.settle] using h.length
  · rw [hpending]
    exact h.nodup.sublist (List.filter_sublist.map _)
  · intro i a' hi
    rw [hpending] at hi
    exact h.job i a' (List.mem_of_mem_filter hi)
  · intro i a' hi
    by_cases heq : i = slot
    · subst heq
      obtain rfl := Option.some.inj (hi.symm.trans hjob)
      exact .inr (List.getElem?_set_self hslot)
    · rcases h.slot i a' hi with hmem | hfilled
      · rw [hpending]
        exact .inl (List.mem_filter.2 ⟨hmem, by simpa using heq⟩)
      · exact .inr ((List.getElem?_set_ne (Ne.symm heq)).trans hfilled)

/-- A move keeps the pool orderly and is one of those that are left. -/
theorem move (h : Orderly jobs result p) (hf : ∀ a ∈ jobs, f none a = .ok (result a)) {m : Move}
    (hm : p.move? limit f m = some q) :
    Orderly jobs result q ∧ q.remaining + 1 = p.remaining := by
  obtain ⟨job, waiting, -, hw, -, rfl⟩ | ⟨slot, notice, ⟨slot', a⟩, -, hnotice, hj, rfl⟩ :=
    move?_cases hm
  · have hpending : p.running ++ [job] ++ waiting = p.pending := by
      rw [pending, hw, List.append_assoc]
      rfl
    constructor
    · exact ⟨h.broken, h.length, by rw [pending, hpending]; exact h.nodup,
        fun i a hi => h.job i a (hpending ▸ hi), fun i a hi => by
          rw [pending, hpending]
          exact h.slot i a hi⟩
    · simp [remaining, hw]
      omega
  · obtain rfl : slot' = slot := by simpa using List.find?_some hj
    have hmem : (slot', a) ∈ p.running := List.mem_of_find?_eq_some hj
    have ha : a ∈ jobs :=
      List.mem_of_getElem? (h.job slot' a (List.mem_append_left _ hmem))
    rw [hnotice h.broken, hf a ha]
    refine ⟨h.settle hmem, ?_⟩
    have hrunning : (p.running.map Prod.fst).Nodup :=
      h.nodup.sublist ((List.sublist_append_left _ _).map _)
    have hlength := length_filter_of_nodup hrunning hmem
    simp only [remaining, Pool.settle]
    omega

/-- Every schedule keeps the pool orderly, and has one move for each that is no longer left. -/
theorem schedule (h : Orderly jobs result p) (hf : ∀ a ∈ jobs, f none a = .ok (result a))
    {ms : List Move} (hs : Schedule limit f p ms q) :
    Orderly jobs result q ∧ ms.length + q.remaining = p.remaining := by
  induction hs with
  | nil => exact ⟨h, by simp⟩
  | cons hm rest ih =>
    obtain ⟨hq, hstep⟩ := h.move hf hm
    obtain ⟨hr, hlength⟩ := ih hq
    refine ⟨hr, ?_⟩
    rw [List.length_cons]
    omega

/-- When no move is left, the pool has the results in the order of the jobs. -/
theorem outcome (h : Orderly jobs result p) (hend : p.remaining = 0) :
    p.outcome = .ok (jobs.map result) := by
  have hnone : p.pending = [] := by
    simp only [remaining] at hend
    have hw : p.waiting = [] := List.eq_nil_of_length_eq_zero (by omega)
    have hr : p.running = [] := List.eq_nil_of_length_eq_zero (by omega)
    rw [pending, hw, hr, List.append_nil]
  have hslots : p.slots = jobs.map fun a => some (result a) := by
    refine List.ext_getElem? fun i => ?_
    cases hi : jobs[i]? with
    | none =>
      have hle : jobs.length ≤ i := List.getElem?_eq_none_iff.1 hi
      rw [List.getElem?_eq_none (h.length ▸ hle), List.getElem?_map, hi]
      rfl
    | some a =>
      rcases h.slot i a hi with hmem | hfilled
      · rw [hnone] at hmem
        cases hmem
      · rw [hfilled, List.getElem?_map, hi]
        rfl
  rw [Pool.outcome, h.broken, hslots]
  simp [List.filterMap_map]

/-- There is a move as long as some are left. -/
theorem exists_move (h : Orderly jobs result p) (f : Option Nat → α → Except ε β)
    (hlimit : 0 < limit) (hleft : p.remaining ≠ 0) :
    ∃ m q, p.choose? limit = some m ∧ p.move? limit f m = some q := by
  unfold choose?
  split
  · rename_i hroom
    simp only [Bool.and_eq_true, Bool.not_eq_true', List.isEmpty_eq_false_iff,
      decide_eq_true_eq] at hroom
    obtain ⟨job, waiting, hw⟩ := List.exists_cons_of_ne_nil hroom.1.1
    refine ⟨.start, { p with waiting, running := p.running ++ [job] }, rfl, ?_⟩
    simp [move?, hw, hroom.2]
  · rename_i hroom
    cases hr : p.running with
    | nil =>
      have hw : p.waiting ≠ [] := by
        intro hw
        simp [remaining, hw, hr] at hleft
      simp [hw, h.broken, hr, hlimit] at hroom
    | cons job running =>
      refine ⟨.finish job.1 none, p.settle job.1 (f none job.2), by simp [h.broken], ?_⟩
      simp [move?, h.broken, hr]

end Orderly

/-! ## The schedule of the program -/

theorem schedule_work (limit : Nat) (f : Option Nat → α → Except ε β) (p : Pool α β ε) :
    ∃ ms, Schedule limit f p ms (p.work limit f) := by
  fun_induction work limit f p with
  | case1 => exact ⟨[], .nil⟩
  | case2 => exact ⟨[], .nil⟩
  | case3 p m hm q hq ih =>
    obtain ⟨ms, hms⟩ := ih
    exact ⟨m :: ms, .cons hq hms⟩

theorem Orderly.remaining_work {jobs : List α} {result : α → β} {p : Pool α β ε}
    (h : Orderly jobs result p) (hf : ∀ a ∈ jobs, f none a = .ok (result a)) (hlimit : 0 < limit) :
    (p.work limit f).remaining = 0 := by
  fun_induction work limit f p with
  | case1 p hm =>
    by_contra hleft
    obtain ⟨m, q, hm', -⟩ := h.exists_move f hlimit hleft
    rw [hm] at hm'
    cases hm'
  | case2 p m hm hq =>
    by_contra hleft
    obtain ⟨m', q, hm', hq'⟩ := h.exists_move f hlimit hleft
    rw [hm] at hm'
    cases hm'
    rw [hq] at hq'
    cases hq'
  | case3 p m hm q hq ih => exact ih (h.move hf hq).1

/-- Jobs that no one disturbs give their results in order, however many run at a time. -/
theorem run_eq_ok {jobs : List α} {result : α → β} (hlimit : 0 < limit)
    (hf : ∀ a ∈ jobs, f none a = .ok (result a)) : run limit f jobs = .ok (jobs.map result) := by
  have hstart : Orderly jobs result (ofJobs jobs : Pool α β ε) := .ofJobs jobs result
  obtain ⟨ms, hms⟩ := schedule_work limit f (ofJobs jobs : Pool α β ε)
  exact (hstart.schedule hf hms).1.outcome (hstart.remaining_work hf hlimit)

end Metamath.Pool
