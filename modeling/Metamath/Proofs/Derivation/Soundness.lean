import Metamath.Proofs.Derivation.Basic
import Metamath.Proofs.Replay.Closure

/-!
# Accepted theorems are derivable

A variable that a theorem does not mention may still occur in its proof. In a derivation a fresh
variable stands in for it (`standIn`), and with these stand-ins everything that a proof pushes is
derivable (`keptByProofs_reached`). Along a run every theorem with a complete proof is therefore
derivable from what was declared before it, axioms and theorems with incomplete proofs
(`run_sound`).
-/

namespace Metamath

/-! ## Variables that stand for fresh ones -/

namespace Database

variable {db : Database} {used : List Symbol}

/-- The atom for a symbol in the proof of a theorem that uses some of the variables: any other
variable is fresh. -/
def standIn (db : Database) (used : List Symbol) (s : Symbol) : Atom :=
  match (db.floating? s).bind db.hypothesis? with
  | some (.floating _ c _) => if s ∈ used then .symbol s else .fresh c (db.vars.idxOf s)
  | _ => .symbol s

theorem standIn_of_used {s : Symbol} (hs : s ∈ used) : db.standIn used s = .symbol s := by
  unfold standIn
  split
  · exact if_pos hs
  · rfl

theorem WellFormed.standIn_constant (hdb : db.WellFormed) {c : Symbol} (hc : c ∈ db.constants) :
    db.standIn used c = .symbol c := by
  have hnone : db.floating? c = none :=
    floating?_eq_none_iff.2 fun hv => hdb.disjoint_symbols hc
      (hdb.subjects_active_subset (hdb.typed_eq ▸ hv))
  rw [standIn, hnone]
  rfl

theorem WellFormed.standIn_unused (hdb : db.WellFormed) {l : Label} {c v : Symbol}
    (h : .floating l c v ∈ db.activeHypotheses) (hv : v ∉ used) :
    db.standIn used v = .fresh c (db.vars.idxOf v) := by
  have hrecord : db.hypothesis? l = some (.floating l c v) := hdb.hypothesis?_of_active h
  rw [standIn, hdb.floating?_eq_some_iff.2 ⟨c, h⟩, Option.bind_some, hrecord]
  exact if_neg hv

/-- Different variables have different stand-ins. -/
theorem WellFormed.standIn_ne (hdb : db.WellFormed) {u v : Symbol}
    (hu : u ∈ subjects db.activeHypotheses) (hv : v ∈ subjects db.activeHypotheses) (hne : u ≠ v) :
    db.standIn used u ≠ db.standIn used v := by
  obtain ⟨l, c, hl⟩ := mem_subjects_iff.1 hu
  obtain ⟨m, d, hm⟩ := mem_subjects_iff.1 hv
  by_cases hu' : u ∈ used <;> by_cases hv' : v ∈ used
  · rw [standIn_of_used hu', standIn_of_used hv']
    exact fun h => hne (Atom.symbol.inj h)
  · rw [standIn_of_used hu', hdb.standIn_unused hm hv']
    exact Atom.noConfusion
  · rw [hdb.standIn_unused hl hu', standIn_of_used hv']
    exact Atom.noConfusion
  · rw [hdb.standIn_unused hl hu', hdb.standIn_unused hm hv']
    intro h
    exact hne ((List.idxOf_inj (hdb.subjects_active_subset hu)).1 (Atom.fresh.inj h).2)

end Database

/-! ## The steps of a proof -/

section Steps

variable {db fin : Database} {granted : Assertion → Prop} {used vs ws : List Symbol}
  {σ : Substitution} {e : Expr}

theorem map_standIn (hdb : db.WellFormed) (he : ∀ s ∈ e, s ∈ db.constants ∨ s ∈ used) :
    e.map (db.standIn used) = e.map .symbol := by
  refine List.map_congr_left fun s hs => ?_
  exact (he s hs).elim hdb.standIn_constant Database.standIn_of_used

/-- With stand-ins for its images a substitution gives the stand-ins for its results. -/
theorem map_standIn_apply (hdb : db.WellFormed) (hσ : σ.Binds vs)
    (he : e.Over db.constants vs) : (σ.apply e).map (db.standIn used) =
      instantiate vs (fun v => (σ.image v).map (db.standIn used)) e := by
  rw [Substitution.apply, instantiate, List.map_flatMap]
  refine List.flatMap_congr fun s hs => ?_
  by_cases hv : s ∈ vs
  · rw [instantiateSymbol_of_mem hv]
  · have hc := (he.mem hs).resolve_right hv
    rw [instantiateSymbol_of_notMem hv, Substitution.image_of_get?_none (hσ.get?_eq_none hv),
      List.map_singleton, hdb.standIn_constant hc]

variable {l : Label} {kind : AssertionKind}

/-- Variables in a proof that are declared disjoint may be required to be disjoint. -/
theorem mayBeDisjoint_standIn (hdb : db.WellFormed) {u v : Symbol}
    (hu : u ∈ subjects db.activeHypotheses) (hv : v ∈ subjects db.activeHypotheses)
    (h : db.isDisjoint u v) :
    MayBeDisjoint (db.frame l kind e) (db.standIn (db.mandatoryVariables e) u)
      (db.standIn (db.mandatoryVariables e) v) := by
  have hne : u ≠ v := by
    rw [Database.isDisjoint, Bool.and_eq_true, bne_iff_ne] at h
    exact h.1
  refine ⟨hdb.standIn_ne hu hv hne, ?_⟩
  obtain ⟨m, c, hm⟩ := mem_subjects_iff.1 hu
  obtain ⟨n, d, hn⟩ := mem_subjects_iff.1 hv
  by_cases hu' : u ∈ db.mandatoryVariables e
  · by_cases hv' : v ∈ db.mandatoryVariables e
    · rw [Database.standIn_of_used hu', Database.standIn_of_used hv']
      rcases Database.pair_mem_mandatoryPairs h hu' hv' with hp | hp
      · exact .inr (.inr ⟨_, hp, .inl ⟨rfl, rfl⟩⟩)
      · exact .inr (.inr ⟨_, hp, .inr ⟨rfl, rfl⟩⟩)
    · rw [hdb.standIn_unused hn hv']
      exact .inr (.inl trivial)
  · rw [hdb.standIn_unused hm hu']
    exact .inl trivial

/-- Every active hypothesis is derivable: it is mandatory, or it gives a fresh variable its
typecode. -/
theorem derivable_active (hdb : db.WellFormed) (hx : db.Extends fin) (hfin : fin.WellFormed)
    {h : Hypothesis} (hh : h ∈ db.activeHypotheses) :
    Derivable fin granted (db.frame l kind e)
      (h.expr.map (db.standIn (db.mandatoryVariables e))) := by
  have hover := hdb.wellScoped.expr_over hh
  have hmandatory : h ∈ db.mandatoryHypotheses (db.mandatoryVariables e) →
      (∀ s ∈ h.expr, s ∈ db.constants ∨ s ∈ db.mandatoryVariables e) →
      Derivable fin granted (db.frame l kind e)
        (h.expr.map (db.standIn (db.mandatoryVariables e))) := by
    intro hm hused
    rw [map_standIn hdb hused]
    exact .hypothesis (List.mem_map_of_mem hm)
      (hx.hypothesis?_eq hfin (hdb.hypothesis?_of_active hh))
  cases h with
  | floating m c v =>
    by_cases hv : v ∈ db.mandatoryVariables e
    · refine hmandatory (Database.floating_mem_mandatoryHypotheses_iff.2 ⟨hh, hv⟩) fun s hs => ?_
      rcases List.mem_pair.1 hs with rfl | rfl
      · exact .inl hover.1
      · exact .inr hv
    · have hatoms : (Hypothesis.floating m c v).expr.map (db.standIn (db.mandatoryVariables e)) =
          [.symbol c, .fresh c (db.vars.idxOf v)] := by
        rw [Hypothesis.expr, List.map_cons, List.map_singleton, hdb.standIn_constant hover.1,
          hdb.standIn_unused hh hv]
      rw [hatoms]
      exact .fresh ⟨hx.constants hover.1, m, v, hx.hypotheses.subset (hdb.active_subset hh)⟩ _
  | essential m e' =>
    refine hmandatory (Database.essential_mem_mandatoryHypotheses_iff.2 hh) fun s hs => ?_
    refine (hover.mem hs).imp_right fun hv => ?_
    exact Database.mem_mandatoryVariables_iff.2
      ⟨hdb.subjects_active_subset hv, .inr ⟨m, e', hh, hs⟩⟩

/-- The expression is over the active variables and derivable, with fresh variables for those that
the theorem does not use. -/
def Reached (db fin : Database) (granted : Assertion → Prop) (thm : Assertion) (e : Expr) : Prop :=
  e.Over db.constants (subjects db.activeHypotheses) ∧
    Derivable fin granted thm (e.map (db.standIn (db.mandatoryVariables thm.expr)))

/-- The stand-ins for what replaces a disjoint pair are apart. -/
theorem apart_standIn (hdb : db.WellFormed) (hx : db.Extends fin) (hfin : fin.WellFormed)
    {us vs : Expr} (hus : ∀ u ∈ us, u ∈ db.constants ∨ u ∈ subjects db.activeHypotheses)
    (hvs : ∀ v ∈ vs, v ∈ db.constants ∨ v ∈ subjects db.activeHypotheses)
    (h : ∀ u ∈ us, ∀ v ∈ vs, u ∈ db.vars → v ∈ db.vars → db.isDisjoint u v) :
    Apart fin (db.frame l kind e) (us.map (db.standIn (db.mandatoryVariables e)))
      (vs.map (db.standIn (db.mandatoryVariables e))) := by
  -- a constant stands in for itself and is no variable
  have hsubject : ∀ s, s ∈ db.constants ∨ s ∈ subjects db.activeHypotheses →
      (db.standIn (db.mandatoryVariables e) s).IsVariable fin →
      s ∈ subjects db.activeHypotheses := by
    rintro s (hc | hs) hvar
    · rw [hdb.standIn_constant hc] at hvar
      exact absurd hvar (hfin.disjoint_symbols (hx.constants hc))
    · exact hs
  intro u' hu' v' hv' hu'' hv''
  obtain ⟨u, hu, rfl⟩ := List.mem_map.1 hu'
  obtain ⟨v, hv, rfl⟩ := List.mem_map.1 hv'
  have hus' := hsubject u (hus u hu) hu''
  have hvs' := hsubject v (hvs v hv) hv''
  exact mayBeDisjoint_standIn hdb hus' hvs' (h u hu v hv (hdb.subjects_active_subset hus')
    (hdb.subjects_active_subset hvs'))

/-- What a successful application of an assertion gives is reached if its arguments are. -/
theorem Reached.apply (hdb : db.WellFormed) (hx : db.Extends fin) (hfin : fin.WellFormed)
    (hgranted : ∀ a, granted a → a ∈ fin.assertions) {a : Assertion} (ha : a ∈ db.assertions)
    (hder : granted a ∨ Derivable fin granted a (a.expr.map .symbol)) {args : List Expr}
    {e' : Expr} (hargs : ∀ arg ∈ args, Reached db fin granted (db.frame l kind e) arg)
    (hu : unify db a args = .ok (σ, e')) : Reached db fin granted (db.frame l kind e) e' := by
  obtain ⟨hs, hframed⟩ := hdb.framed a ha
  obtain ⟨hσ, rfl, rfl, hdisjoint⟩ := unify_sound hdb hframed hu
  have hreached : ∀ h ∈ hs, Reached db fin granted (db.frame l kind e) (σ.apply h.expr) :=
    fun h hh => hargs _ (List.mem_map_of_mem hh)
  have himage : ∀ v ∈ subjects hs, ∀ s ∈ σ.image v,
      s ∈ db.constants ∨ s ∈ subjects db.activeHypotheses :=
    mem_of_mem_image fun h hh => (hreached h hh).1
  refine ⟨hframed.expr_over.apply hdb hσ hframed.subjects_subset himage, ?_⟩
  rw [map_standIn_apply hdb hσ hframed.expr_over]
  refine Derivable.cut hfin hgranted (hx.framed hfin hframed) hder (fun h hh => ?_) (fun p hp => ?_)
  · rw [← map_standIn_apply hdb hσ (hframed.wellScoped.expr_over hh)]
    exact (hreached h hh).2
  · obtain ⟨hpx, hpy⟩ := hframed.disjoint_mem p hp
    rw [instantiate_singleton, instantiate_singleton, instantiateSymbol_of_mem hpx,
      instantiateSymbol_of_mem hpy]
    exact apart_standIn hdb hx hfin (himage p.x hpx) (himage p.y hpy) (hdisjoint p hp)

/-- Proofs of a theorem keep to what is reached, where every other assertion of the database is
granted or follows from its own hypotheses. -/
theorem keptByProofs_reached (hdb : db.WellFormed) (hx : db.Extends fin) (hfin : fin.WellFormed)
    (hgranted : ∀ a, granted a → a ∈ fin.assertions)
    (hder : ∀ a ∈ db.assertions, a.label ≠ l →
      granted a ∨ Derivable fin granted a (a.expr.map .symbol)) :
    KeptByProofs db (db.frame l kind e) (Reached db fin granted (db.frame l kind e)) := by
  have hactive : ∀ h ∈ db.activeHypotheses,
      Reached db fin granted (db.frame l kind e) h.expr := fun h hh =>
    ⟨hdb.wellScoped.expr_over hh, derivable_active hdb hx hfin hh⟩
  refine ⟨hactive, fun m hm h hh => ?_, fun a ha hl args σ e' hargs hu => ?_⟩
  · obtain ⟨h', hh', rfl⟩ := List.mem_map.1 hm
    have hh'' := (db.mandatoryHypotheses_sublist _).subset hh'
    obtain rfl := Option.some.inj ((hdb.hypothesis?_of_active hh'').symm.trans hh)
    exact hactive h' hh''
  · exact Reached.apply hdb hx hfin hgranted ha (hder a ha hl) hargs hu

/-- A theorem with a complete proof is derivable. -/
theorem derivable_of_complete (hdb : db.WellFormed) (hx : db.Extends fin) (hfin : fin.WellFormed)
    (hgranted : ∀ a, granted a → a ∈ fin.assertions)
    (hder : ∀ a ∈ db.assertions, a.label ≠ l →
      granted a ∨ Derivable fin granted a (a.expr.map .symbol))
    (he : e.Over db.constants (subjects db.activeHypotheses))
    (hv : HasVerdict db (db.frame l kind e) ⟨false, none⟩) :
    Derivable fin granted (db.frame l kind e) (e.map .symbol) := by
  have hne : (db.frame l kind e).expr ≠ [] := by
    rintro (rfl : e = [])
    exact he
  have hreached := (keptByProofs_reached hdb hx hfin hgranted hder).of_complete hne hv
  have hused : ∀ s ∈ e, s ∈ db.constants ∨ s ∈ db.mandatoryVariables e := fun s hs =>
    (he.mem hs).imp_right fun hv => Database.mem_mandatoryVariables_iff.2
      ⟨hdb.subjects_active_subset hv, .inl hs⟩
  rw [← map_standIn hdb hused]
  exact hreached.2

end Steps

/-! ## Runs -/

/-- A warning says that the proof of the theorem with this label is incomplete. -/
def Warned (warnings : List Diagnostic) (l : Label) : Prop :=
  ∃ d ∈ warnings, d.cause = .incompleteProof l

/-- The assertions of a list that are taken without a proof: axioms, and theorems whose proofs are
incomplete. -/
def Granted (warnings : List Diagnostic) (earlier : List Assertion) (a : Assertion) : Prop :=
  a ∈ earlier ∧ (a.kind = .axiomatic ∨ Warned warnings a.label)

theorem Warned.mono {ws ws' : List Diagnostic} {l : Label} (h : Warned ws l) (hs : ws ⊆ ws') :
    Warned ws' l :=
  h.imp fun _ hd => ⟨hs hd.1, hd.2⟩

theorem Granted.mono {ws ws' : List Diagnostic} {earlier earlier' : List Assertion} {a : Assertion}
    (h : Granted ws earlier a) (hs : ws ⊆ ws') (he : earlier ⊆ earlier') : Granted ws' earlier' a :=
  ⟨he h.1, h.2.imp_right fun hw => hw.mono hs⟩

namespace Database

variable {db db' : Database}

theorem kind_of_unproved {d : Declaration} {a : Assertion} (hd : d.Unproved)
    (ha : d.assertion? db = some a) : a.kind = .axiomatic := by
  cases d <;> cases ha
  rename_i l kind e
  cases kind with
  | axiomatic => rfl
  | provable => exact absurd rfl (hd.2 l e)

/-- Declarations without proofs put no theorem before another one. -/
theorem Declares.exists_split (h : Declares Declaration.Unproved db db')
    {later earlier : List Assertion} {thm : Assertion} (hk : thm.kind = .provable)
    (hsplit : db'.assertions = later ++ thm :: earlier) :
    ∃ later', db.assertions = later' ++ thm :: earlier := by
  induction h generalizing later with
  | refl => exact ⟨later, hsplit⟩
  | tail _ hd ih =>
    obtain ⟨d, hd, hdb⟩ := hd
    rw [(tables_of_declare hdb).2.2.2] at hsplit
    cases ha : d.assertion? _ with
    | none => exact ih (by rwa [ha] at hsplit)
    | some a =>
      rw [ha] at hsplit
      cases later with
      | nil =>
        obtain ⟨rfl, -⟩ := List.cons.inj hsplit
        rw [kind_of_unproved hd ha] at hk
        cases hk
      | cons b later => exact ih (List.cons.inj hsplit).2

end Database

namespace Session

variable {s s' : Session}

/-- Every theorem without a warning is derivable from what was granted before it. The records of a
later database will do as well. -/
def Sound (s : Session) : Prop :=
  ∀ fin, s.db.Extends fin → fin.WellFormed → ∀ later thm earlier,
    s.db.assertions = later ++ thm :: earlier → thm.kind = .provable →
    ¬ Warned s.warnings thm.label →
    Derivable fin (Granted s.warnings earlier) thm (thm.expr.map .symbol)

/-- An earlier assertion is granted, or follows from what is. -/
theorem Sound.granted_or_derivable (hs : s.Sound) {fin : Database} (hx : s.db.Extends fin)
    (hfin : fin.WellFormed) {a : Assertion} (ha : a ∈ s.db.assertions) :
    Granted s.warnings s.db.assertions a ∨
      Derivable fin (Granted s.warnings s.db.assertions) a (a.expr.map .symbol) := by
  by_cases hw : Warned s.warnings a.label
  · exact .inl ⟨ha, .inr hw⟩
  · cases hk : a.kind with
    | axiomatic => exact .inl ⟨ha, .inl hk⟩
    | provable =>
      obtain ⟨later, earlier, hsplit⟩ := List.append_of_mem ha
      refine .inr ((hs fin hx hfin later a earlier hsplit hk hw).mono fun b hb => ?_)
      refine hb.mono (List.Subset.refl _) ?_
      rw [hsplit]
      exact List.subset_append_of_subset_right _ (List.subset_cons_self _ _)

/-- A theorem that was just declared with a complete proof is derivable. -/
theorem Sound.derivable_of_added (hs : s.Sound) (hdb : s.db.WellFormed) {l : Label} {e : Expr}
    {thm : Assertion} (hadd : s.db.addAssertion l .provable e = .ok (s'.db, thm))
    (hv : HasVerdict s'.db thm ⟨false, none⟩) {fin : Database} (hx : s.db.Extends fin)
    (hx' : s'.db.Extends fin) (hfin : fin.WellFormed) :
    Derivable fin (Granted s.warnings s.db.assertions) thm (thm.expr.map .symbol) := by
  have hdb' := hdb.addAssertion hadd
  have he := hdb.over_of_addAssertion hadd
  obtain ⟨-, -, rfl, hs'⟩ := Database.addAssertion_eq_ok_iff.1 hadd
  -- the frame is the same before and after the theorem is recorded
  have hframe : s.db.frame l .provable e = s'.db.frame l .provable e := by
    rw [hs']
    rfl
  have he' : e.Over s'.db.constants (subjects s'.db.activeHypotheses) := by
    rw [hs']
    exact he
  have hder : ∀ a ∈ s'.db.assertions, a.label ≠ l →
      Granted s.warnings s.db.assertions a ∨
        Derivable fin (Granted s.warnings s.db.assertions) a (a.expr.map .symbol) := by
    intro a ha hl
    rw [hs'] at ha
    rcases List.mem_cons.1 ha with rfl | ha
    · exact absurd rfl hl
    · exact hs.granted_or_derivable hx hfin ha
  rw [hframe] at hv ⊢
  exact derivable_of_complete hdb' hx' hfin (fun a ha => hx.assertions.subset ha.1) hder he' hv

/-- A change without a failure keeps a session sound. -/
theorem Sound.change (hs : s.Sound) (hdb : s.db.WellFormed) (h : s.Change (s', none)) :
    s'.Sound := by
  intro fin hx hfin later thm earlier hsplit hk hw
  have hx₀ := h.declares.extends.trans hx
  cases h with
  | unproved declares warnings =>
    obtain ⟨later', hsplit'⟩ := declares.exists_split hk hsplit
    rw [warnings] at hw ⊢
    exact hs fin hx₀ hfin later' thm earlier hsplit' hk hw
  | @proved _ l e thm' v pos label added verdict accepted warnings =>
    have hsub : s.warnings ⊆ s'.warnings := by
      rw [warnings]
      exact List.subset_append_left _ _
    obtain ⟨-, -, hthm, hs'⟩ := Database.addAssertion_eq_ok_iff.1 added
    rw [hs'] at hsplit
    cases later with
    | nil =>
      -- the theorem just declared: without a warning its proof is complete
      obtain ⟨rfl, rfl⟩ := List.cons.inj hsplit
      rw [← hthm] at hw ⊢
      obtain ⟨incomplete, failure⟩ := v
      obtain rfl : failure = none := accepted
      cases incomplete with
      | true =>
        refine absurd ?_ hw
        rw [warnings, hthm]
        exact ⟨_, List.mem_append_right _ (List.mem_singleton_self _), rfl⟩
      | false =>
        refine (hs.derivable_of_added hdb added verdict hx₀ hx hfin).mono fun a ha => ?_
        exact ha.mono hsub (List.Subset.refl _)
    | cons b later =>
      -- an older theorem: it had no warning before, since none is ever taken back
      have hold := hs fin hx₀ hfin later thm earlier (List.cons.inj hsplit).2 hk
        fun hw' => hw (hw'.mono hsub)
      exact hold.mono fun a ha => ha.mono hsub (List.Subset.refl _)

end Session

/-- In an accepted run every theorem without a warning is derivable from its mandatory hypotheses
by assertions declared before it that are axioms or have a warning. -/
theorem run_sound {interrupt : Option Interrupt} {stream : Stream}
    (haccepted : (run interrupt stream).failure = none) {later earlier : List Assertion}
    {thm : Assertion} (hsplit : (run interrupt stream).db.assertions = later ++ thm :: earlier)
    (hkind : thm.kind = .provable) (hcomplete : ¬ Warned (run interrupt stream).warnings thm.label) :
    Derivable (run interrupt stream).db (Granted (run interrupt stream).warnings earlier) thm
      (thm.expr.map .symbol) := by
  have hstart : ({} : Session).db.WellFormed ∧ ({} : Session).Sound := by
    refine ⟨Database.wellFormed_empty, fun fin _ _ later thm earlier h => ?_⟩
    cases later <;> cases h
  obtain ⟨hdb, hsound⟩ := runFrom_induction_of_accepted
    (P := fun s => s.db.WellFormed ∧ s.Sound)
    (fun s s' h hs => ⟨h.declares.wellFormed hs.1, hs.2.change hs.1 h⟩) hstart haccepted
  exact hsound _ (.refl _) hdb later thm earlier hsplit hkind hcomplete

theorem twice_derivable : (run none Sample.stream).failure = none ∧
    (run none Sample.stream).db.assertions =
      [] ++ Sample.twice :: Sample.once :: Sample.again :: Sample.axioms ∧
    Sample.twice.kind = .provable ∧ ¬ Warned (run none Sample.stream).warnings "twice" ∧
    Derivable (run none Sample.stream).db
      (Granted (run none Sample.stream).warnings (Sample.once :: Sample.again :: Sample.axioms))
      Sample.twice (["|-", "(", "q", "->", "(", "q", "->", "p", ")", ")"].map .symbol) := by
  have haccepted : (run none Sample.stream).failure = none := by decide +kernel
  have hsplit : (run none Sample.stream).db.assertions =
      [] ++ Sample.twice :: Sample.once :: Sample.again :: Sample.axioms := by decide +kernel
  have hwarnings : (run none Sample.stream).warnings = [] := by decide +kernel
  have hcomplete : ¬ Warned (run none Sample.stream).warnings "twice" := by
    rw [hwarnings]
    rintro ⟨d, hd, -⟩
    cases hd
  exact ⟨haccepted, hsplit, rfl, hcomplete, run_sound haccepted hsplit rfl hcomplete⟩

end Metamath
