/-!
# Worker pools

A `Pool` works through a list of jobs with a bounded number of them at a time. Each job has a slot
for its result, so that results come in the order of the jobs whatever the order in which they are
finished. A job that is broken off has no result and breaks the pool, which the jobs that still run
may notice. A pool changes by moves (`move?`); `Pool.run` starts jobs as long as it may and finishes
the oldest one when it must.
-/

namespace Metamath

/-- Jobs in three states: waiting, running, and finished with the result in their slot. -/
structure Pool (α β ε : Type) where
  waiting : List (Nat × α)
  running : List (Nat × α)
  slots : List (Option β)
  /-- Why the first of the jobs that were broken off was. -/
  broken : Option ε := none

/-- What can happen next. -/
inductive Pool.Move where
  | start
  /-- The job of a slot ends. It may have noticed, after so much work, that the pool is broken. -/
  | finish (slot : Nat) (notice : Option Nat)
deriving DecidableEq, Repr

namespace Pool

variable {α β ε : Type}

/-- The pool before any job is started. -/
def ofJobs (jobs : List α) : Pool α β ε where
  waiting := jobs.zipIdx.map fun (job, slot) => (slot, job)
  running := []
  slots := jobs.map fun _ => none

/-- Puts down how a running job ends: its result has its slot, an error counts if it is the first. -/
def settle (p : Pool α β ε) (slot : Nat) (result : Except ε β) : Pool α β ε :=
  let running := p.running.filter (·.1 != slot)
  match result with
  | .ok b => { p with running, slots := p.slots.set slot (some b) }
  | .error e => { p with running, broken := p.broken.or (some e) }

/-- Makes a move, if it is possible: no more than `limit` jobs run at a time, and no job can notice
what has not happened. -/
def move? (limit : Nat) (f : Option Nat → α → Except ε β) (p : Pool α β ε) :
    Move → Option (Pool α β ε)
  | .start =>
    match p.waiting with
    | job :: waiting =>
      if p.running.length < limit then some { p with waiting, running := p.running ++ [job] }
      else none
    | [] => none
  | .finish slot notice =>
    if notice.isSome && p.broken.isNone then none
    else (p.running.find? (·.1 == slot)).map fun job => p.settle slot (f notice job.2)

/-- How many moves are left: two for a waiting job, one for a running one. -/
def remaining (p : Pool α β ε) : Nat :=
  2 * p.waiting.length + p.running.length

theorem remaining_settle_lt {p : Pool α β ε} {slot : Nat} {job : Nat × α}
    (h : p.running.find? (·.1 == slot) = some job) (result : Except ε β) :
    (p.settle slot result).remaining < p.remaining := by
  have hlt : (p.running.filter (·.1 != slot)).length < p.running.length :=
    List.length_filter_lt_length_iff_exists.2
      ⟨job, List.mem_of_find?_eq_some h, by simpa [bne] using List.find?_some h⟩
  cases result <;> simp only [settle, remaining] <;> omega

/-- The next waiting job is started if there is room, or a running job ends. -/
theorem move?_cases {limit : Nat} {f : Option Nat → α → Except ε β} {p q : Pool α β ε} {m : Move}
    (h : p.move? limit f m = some q) :
    (∃ job waiting, m = .start ∧ p.waiting = job :: waiting ∧ p.running.length < limit ∧
      q = { p with waiting, running := p.running ++ [job] }) ∨
    ∃ slot notice job, m = .finish slot notice ∧ (p.broken = none → notice = none) ∧
      p.running.find? (·.1 == slot) = some job ∧ q = p.settle slot (f notice job.2) := by
  cases m with
  | start =>
    simp only [move?] at h
    split at h
    · rename_i job waiting hw
      split at h
      · cases h
        exact .inl ⟨job, waiting, rfl, hw, ‹_›, rfl⟩
      · cases h
    · cases h
  | finish slot notice =>
    simp only [move?] at h
    split at h
    · cases h
    · rename_i hnotice
      obtain ⟨job, hj, rfl⟩ := Option.map_eq_some_iff.1 h
      refine .inr ⟨slot, notice, job, rfl, fun hb => ?_, hj, rfl⟩
      simpa [hb] using hnotice

theorem remaining_lt_of_move? {limit : Nat} {f : Option Nat → α → Except ε β} {p q : Pool α β ε}
    {m : Move} (h : p.move? limit f m = some q) : q.remaining < p.remaining := by
  obtain ⟨job, waiting, -, hw, -, rfl⟩ | ⟨slot, notice, job, -, -, hj, rfl⟩ := move?_cases h
  · simp [remaining, hw]
    omega
  · exact remaining_settle_lt hj _

/-- The move of the program: a start while there is room and nothing is broken, else the end of the
oldest job. -/
def choose? (limit : Nat) (p : Pool α β ε) : Option Move :=
  if !p.waiting.isEmpty && p.broken.isNone && p.running.length < limit then some .start
  else p.running.head?.map fun job => .finish job.1 (p.broken.map fun _ => 0)

/-- Makes moves until there is none left. -/
def work (limit : Nat) (f : Option Nat → α → Except ε β) (p : Pool α β ε) : Pool α β ε :=
  match p.choose? limit with
  | none => p
  | some m =>
    match _hq : p.move? limit f m with
    | none => p
    | some q => work limit f q
termination_by p.remaining
decreasing_by exact remaining_lt_of_move? _hq

/-- What a pool has come to: the results in the order of the jobs, unless it is broken. -/
def outcome (p : Pool α β ε) : Except ε (List β) :=
  match p.broken with
  | some e => .error e
  | none => .ok (p.slots.filterMap id)

/-- Works through jobs. -/
def run (limit : Nat) (f : Option Nat → α → Except ε β) (jobs : List α) : Except ε (List β) :=
  (work limit f (ofJobs jobs)).outcome

end Pool

end Metamath
