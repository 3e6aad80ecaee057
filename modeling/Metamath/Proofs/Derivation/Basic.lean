import Metamath.Proofs.Database.WellFormed

/-!
# Derivations

What follows from the mandatory hypotheses of a theorem by applying assertions, with no stack and no
text of a proof (`Derivable`). A derivation may bring in any number of fresh variables, so its
expressions are made of atoms: symbols and fresh variables. The main result is that derivations
compose (`Derivable.cut`): where a theorem follows from its own hypotheses, using the theorem adds
nothing to what can be derived.
-/

namespace Metamath

/-- A symbol of the database, or a fresh variable of a typecode. -/
inductive Atom where
  | symbol (s : Symbol)
  | fresh (typecode : Symbol) (index : Nat)
deriving DecidableEq, Repr

/-- Whether an atom can be substituted. -/
def Atom.IsVariable (db : Database) : Atom → Prop
  | symbol s => s ∈ db.vars
  | fresh .. => True

/-- Whether an atom is a fresh variable. -/
def Atom.IsFresh : Atom → Prop
  | symbol _ => False
  | fresh .. => True

/-- What stands for a symbol when some variables are substituted. -/
def instantiateSymbol (vs : List Symbol) (σ : Symbol → List Atom) (s : Symbol) : List Atom :=
  if s ∈ vs then σ s else [.symbol s]

/-- The instance of an expression when some variables are substituted. -/
def instantiate (vs : List Symbol) (σ : Symbol → List Atom) (e : Expr) : List Atom :=
  e.flatMap (instantiateSymbol vs σ)

/-- A typecode is a constant that a floating hypothesis gives to a variable. -/
def Database.IsTypecode (db : Database) (c : Symbol) : Prop :=
  c ∈ db.constants ∧ ∃ l v, .floating l c v ∈ db.hypotheses

/-- In the proof of a theorem two variables may be required to be disjoint: they differ, and the
theorem says so of them unless one is fresh. -/
def MayBeDisjoint (thm : Assertion) (u v : Atom) : Prop :=
  u ≠ v ∧ (u.IsFresh ∨ v.IsFresh ∨
    ∃ p ∈ thm.disjoint, (u = .symbol p.x ∧ v = .symbol p.y) ∨ (u = .symbol p.y ∧ v = .symbol p.x))

/-- Two sequences without a common variable, as far as the theorem can say so. -/
def Apart (db : Database) (thm : Assertion) (us vs : List Atom) : Prop :=
  ∀ u ∈ us, ∀ v ∈ vs, u.IsVariable db → v.IsVariable db → MayBeDisjoint thm u v

/-- What follows from the mandatory hypotheses of a theorem by assertions that are granted. -/
inductive Derivable (db : Database) (granted : Assertion → Prop) (thm : Assertion) :
    List Atom → Prop
  | hypothesis {l : Label} {h : Hypothesis} (mandatory : l ∈ thm.hypotheses)
      (record : db.hypothesis? l = some h) : Derivable db granted thm (h.expr.map .symbol)
  | fresh {c : Symbol} (typecode : db.IsTypecode c) (index : Nat) :
      Derivable db granted thm [.symbol c, .fresh c index]
  | apply {a : Assertion} {hs : List Hypothesis} (σ : Symbol → List Atom) (grant : granted a)
      (records : a.hypotheses.map db.hypothesis? = hs.map some)
      (premises : ∀ h ∈ hs, Derivable db granted thm (instantiate (subjects hs) σ h.expr))
      (disjoint : ∀ p ∈ a.disjoint, Apart db thm (instantiate (subjects hs) σ [p.x])
        (instantiate (subjects hs) σ [p.y])) :
      Derivable db granted thm (instantiate (subjects hs) σ a.expr)

theorem Derivable.mono {db : Database} {granted granted' : Assertion → Prop} {thm : Assertion}
    {e : List Atom} (h : Derivable db granted thm e) (hg : ∀ a, granted a → granted' a) :
    Derivable db granted' thm e := by
  induction h with
  | hypothesis mandatory record => exact .hypothesis mandatory record
  | fresh typecode index => exact .fresh typecode index
  | apply σ grant records _ disjoint ih => exact .apply σ (hg _ grant) records ih disjoint

/-! ## Instances -/

section Instances

variable {vs : List Symbol} {σ : Symbol → List Atom}

theorem instantiateSymbol_of_mem {v : Symbol} (hv : v ∈ vs) : instantiateSymbol vs σ v = σ v :=
  if_pos hv

theorem instantiateSymbol_of_notMem {s : Symbol} (hs : s ∉ vs) :
    instantiateSymbol vs σ s = [.symbol s] :=
  if_neg hs

theorem instantiate_singleton (s : Symbol) : instantiate vs σ [s] = instantiateSymbol vs σ s := by
  rw [instantiate, List.flatMap_singleton]

/-- A bound for the fresh variables of a sequence. -/
theorem exists_index_bound (us : List Atom) : ∃ n, ∀ c i, .fresh c i ∈ us → i < n := by
  induction us with
  | nil => exact ⟨0, fun c i h => by cases h⟩
  | cons u us ih =>
    obtain ⟨n, hn⟩ := ih
    cases u with
    | symbol s =>
      refine ⟨n, fun c i h => ?_⟩
      rcases List.mem_cons.1 h with h | h
      · cases h
      · exact hn c i h
    | fresh c₀ i₀ =>
      refine ⟨max n (i₀ + 1), fun c i h => ?_⟩
      rcases List.mem_cons.1 h with h | h
      · obtain ⟨-, rfl⟩ := Atom.fresh.inj h
        omega
      · have := hn c i h
        omega

/-- Substitutes variables, and shifts the fresh variables out of the way of those that come in. -/
def graft (vs : List Symbol) (σ : Symbol → List Atom) (n : Nat) : Atom → List Atom
  | .symbol s => instantiateSymbol vs σ s
  | .fresh c i => [.fresh c (n + i)]

theorem flatMap_graft_map_symbol (n : Nat) (e : Expr) :
    (e.map Atom.symbol).flatMap (graft vs σ n) = instantiate vs σ e := by
  rw [List.flatMap_map]
  rfl

/-- An instance is grafted by grafting what was substituted, if all that stays is out of reach. -/
theorem flatMap_graft_instantiate {ws : List Symbol} {ρ : Symbol → List Atom} (n : Nat) {e : Expr}
    (he : ∀ s ∈ e, s ∈ ws ∨ s ∉ vs) :
    (instantiate ws ρ e).flatMap (graft vs σ n) =
      instantiate ws (fun v => (ρ v).flatMap (graft vs σ n)) e := by
  rw [instantiate, instantiate, List.flatMap_assoc]
  refine List.flatMap_congr fun s hs => ?_
  by_cases hw : s ∈ ws
  · rw [instantiateSymbol_of_mem hw, instantiateSymbol_of_mem hw]
  · rw [instantiateSymbol_of_notMem hw, instantiateSymbol_of_notMem hw, List.flatMap_singleton]
    exact instantiateSymbol_of_notMem ((he s hs).resolve_left hw)

end Instances

/-! ## Derivations compose -/

theorem MayBeDisjoint.symm {thm : Assertion} {u v : Atom} (h : MayBeDisjoint thm u v) :
    MayBeDisjoint thm v u := by
  obtain ⟨hne, hu | hv | ⟨p, hp, hpair⟩⟩ := h
  · exact ⟨hne.symm, .inr (.inl hu)⟩
  · exact ⟨hne.symm, .inl hv⟩
  · exact ⟨hne.symm, .inr (.inr ⟨p, hp, hpair.symm.imp And.symm And.symm⟩)⟩

section Cut

variable {db : Database} {thm b : Assertion} {vs : List Symbol} {σ : Symbol → List Atom} {n : Nat}

theorem isVariable_of_mem_graft (hvs : vs ⊆ db.vars) {u u₀ : Atom} (hu : u ∈ graft vs σ n u₀)
    (hvar : u.IsVariable db) : u₀.IsVariable db := by
  cases u₀ with
  | fresh c i => trivial
  | symbol s =>
    by_cases hs : s ∈ vs
    · exact hvs hs
    · rw [graft, instantiateSymbol_of_notMem hs, List.mem_singleton] at hu
      rwa [hu] at hvar

/-- A shifted fresh variable differs from all that the substitution brings in. -/
theorem shifted_ne (hn : ∀ v ∈ vs, ∀ c i, .fresh c i ∈ σ v → i < n) {c : Symbol} {i : Nat}
    {s : Symbol} {v : Atom} (hv : v ∈ instantiateSymbol vs σ s) : .fresh c (n + i) ≠ v := by
  rintro rfl
  by_cases hs : s ∈ vs
  · rw [instantiateSymbol_of_mem hs] at hv
    have := hn s hs c (n + i) hv
    omega
  · rw [instantiateSymbol_of_notMem hs, List.mem_singleton] at hv
    cases hv

/-- Sequences that are apart in the proof of `b` are apart after grafting, if the substitution
keeps apart what `b` says is disjoint. -/
theorem Apart.graft (hvs : vs ⊆ db.vars) (hn : ∀ v ∈ vs, ∀ c i, .fresh c i ∈ σ v → i < n)
    (hσ : ∀ p ∈ b.disjoint, Apart db thm (instantiate vs σ [p.x]) (instantiate vs σ [p.y]))
    {us ws : List Atom} (h : Apart db b us ws) :
    Apart db thm (us.flatMap (graft vs σ n)) (ws.flatMap (graft vs σ n)) := by
  intro u hu w hw hu' hw'
  obtain ⟨u₀, hu₀, hu⟩ := List.mem_flatMap.1 hu
  obtain ⟨w₀, hw₀, hw⟩ := List.mem_flatMap.1 hw
  obtain ⟨hne, hcase⟩ := h u₀ hu₀ w₀ hw₀ (isVariable_of_mem_graft hvs hu hu')
    (isVariable_of_mem_graft hvs hw hw')
  cases u₀ with
  | fresh c i =>
    obtain rfl := List.mem_singleton.1 hu
    refine ⟨?_, .inl trivial⟩
    cases w₀ with
    | fresh d j =>
      obtain rfl := List.mem_singleton.1 hw
      rintro heq
      obtain ⟨rfl, hij⟩ := Atom.fresh.inj heq
      exact hne (by rw [Nat.add_left_cancel hij])
    | symbol t => exact shifted_ne hn hw
  | symbol s =>
    cases w₀ with
    | fresh d j =>
      obtain rfl := List.mem_singleton.1 hw
      exact ⟨(shifted_ne hn hu).symm, .inr (.inl trivial)⟩
    | symbol t =>
      -- two symbols that `b` requires to be disjoint: the substitution keeps their images apart
      have himage : ∀ {q : Symbol} {x : Atom}, x ∈ instantiateSymbol vs σ q →
          x ∈ instantiate vs σ [q] := fun hx => by rwa [instantiate_singleton]
      obtain hf | hf | ⟨p, hp, ⟨hs, ht⟩ | ⟨hs, ht⟩⟩ := hcase
      · exact hf.elim
      · exact hf.elim
      · obtain rfl := Atom.symbol.inj hs
        obtain rfl := Atom.symbol.inj ht
        exact hσ p hp u (himage hu) w (himage hw) hu' hw'
      · obtain rfl := Atom.symbol.inj hs
        obtain rfl := Atom.symbol.inj ht
        exact (hσ p hp w (himage hw) u (himage hu) hw' hu').symm

variable {granted : Assertion → Prop} {hs : List Hypothesis}

/-- The hypotheses of an assertion are determined by its labels. -/
theorem Database.WellFormed.framed_of_records (hdb : db.WellFormed) {a : Assertion}
    (ha : a ∈ db.assertions) (hr : a.hypotheses.map db.hypothesis? = hs.map some) :
    db.Framed a hs := by
  obtain ⟨hs', hf⟩ := hdb.framed a ha
  rw [hf.records] at hr
  rwa [(List.map_inj_right fun _ _ => Option.some.inj).1 hr] at hf

/-- Symbols of an expression of an assertion are variables of its frame or constants, which no
substitution reaches. -/
theorem Database.WellFormed.mem_or_notMem_of_over (hdb : db.WellFormed) {ws : List Symbol}
    (hvs : vs ⊆ db.vars) {e : Expr} (he : e.Over db.constants ws) {s : Symbol} (hs : s ∈ e) :
    s ∈ ws ∨ s ∉ vs := by
  rcases he.mem hs with hc | hw
  · exact .inr fun hv => hdb.disjoint_symbols hc (hvs hv)
  · exact .inl hw

/-- What is derived in the proof of `b` is derived after grafting, where the instances of the
hypotheses of `b` are. -/
theorem Derivable.graft (hdb : db.WellFormed) (hgranted : ∀ a, granted a → a ∈ db.assertions)
    (hb : db.Framed b hs) (hn : ∀ v ∈ subjects hs, ∀ c i, .fresh c i ∈ σ v → i < n)
    (hpremises : ∀ h ∈ hs, Derivable db granted thm (instantiate (subjects hs) σ h.expr))
    (hdisjoint : ∀ p ∈ b.disjoint, Apart db thm (instantiate (subjects hs) σ [p.x])
      (instantiate (subjects hs) σ [p.y])) {e : List Atom} (he : Derivable db granted b e) :
    Derivable db granted thm (e.flatMap (Metamath.graft (subjects hs) σ n)) := by
  have hvs := hb.subjects_subset
  -- an application stays one of the same assertion, with what it substitutes grafted as well
  induction he with
  | hypothesis mandatory record =>
    obtain ⟨h₀, hh, hrecord⟩ := hb.hypothesis?_mem mandatory
    obtain rfl := Option.some.inj (record.symm.trans hrecord)
    rw [flatMap_graft_map_symbol]
    exact hpremises _ hh
  | @fresh c typecode index =>
    have hc : c ∉ subjects hs := fun hv => hdb.disjoint_symbols typecode.1 (hvs hv)
    simp only [List.flatMap_cons, List.flatMap_nil, Metamath.graft, instantiateSymbol_of_notMem hc]
    exact .fresh typecode (n + index)
  | @apply a hs' ρ grant records _ disjoint ih =>
    have ha := hdb.framed_of_records (hgranted a grant) records
    rw [flatMap_graft_instantiate n fun s => hdb.mem_or_notMem_of_over hvs ha.expr_over]
    refine .apply _ grant records (fun h hh => ?_) (fun p hp => ?_)
    · have hover := ha.wellScoped.expr_over hh
      rw [← flatMap_graft_instantiate n fun s => hdb.mem_or_notMem_of_over hvs hover]
      exact ih h hh
    · obtain ⟨hx, hy⟩ := ha.disjoint_mem p hp
      rw [← flatMap_graft_instantiate n (by simp [hx]), ← flatMap_graft_instantiate n (by simp [hy])]
      exact (disjoint p hp).graft hvs hn hdisjoint

/-- An assertion that is granted, or follows from its own hypotheses, can be used in a
derivation. -/
theorem Derivable.cut (hdb : db.WellFormed) (hgranted : ∀ a, granted a → a ∈ db.assertions)
    (hb : db.Framed b hs) (hder : granted b ∨ Derivable db granted b (b.expr.map .symbol))
    (hpremises : ∀ h ∈ hs, Derivable db granted thm (instantiate (subjects hs) σ h.expr))
    (hdisjoint : ∀ p ∈ b.disjoint, Apart db thm (instantiate (subjects hs) σ [p.x])
      (instantiate (subjects hs) σ [p.y])) :
    Derivable db granted thm (instantiate (subjects hs) σ b.expr) := by
  rcases hder with hgrant | hder
  · exact .apply σ hgrant hb.records hpremises hdisjoint
  · obtain ⟨n, hn⟩ := exists_index_bound ((subjects hs).flatMap σ)
    rw [← flatMap_graft_map_symbol n]
    refine hder.graft hdb hgranted hb (fun v hv c i hi => hn c i ?_) hpremises hdisjoint
    exact List.mem_flatMap.2 ⟨v, hv, hi⟩

end Cut

end Metamath
