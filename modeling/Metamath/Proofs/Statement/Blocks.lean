import Metamath.Proofs.Statement.Halting

/-!
# Blocks and where runs fail

`BlocksMatch` says that each `${` among some tokens has its `$}`, and `Unmatched` which `${` have none.
Between two statements the session has the positions of just these (`Completes.tracks`), because
statements that are carried out hold no other `${` or `$}` than those that open and close blocks
(`Sentence.mem_words_of_perform`). So a run that fails with a diagnostic of its own points at a token
of the statement at fault or, when the tokens end inside a block, at the innermost `${` without a
`$}` (`run_points`).
-/

namespace Metamath

/-! ## Openings without a closing -/

/-- Each `${` has its `$}`, and each `$}` has its `${`. -/
inductive BlocksMatch : List Token → Prop
  | nil : BlocksMatch []
  | other {t : Token} (ho : t.text ≠ "$\x7b") (hc : t.text ≠ "$\x7d") : BlocksMatch [t]
  | block {opening close : Token} {inner : List Token} (ho : opening.text = "$\x7b")
      (hc : close.text = "$\x7d") (h : BlocksMatch inner) :
      BlocksMatch (opening :: (inner ++ [close]))
  | append {ts ts' : List Token} (h : BlocksMatch ts) (h' : BlocksMatch ts') :
      BlocksMatch (ts ++ ts')

/-- The `${` without a `$}` among some tokens, in order. -/
inductive Unmatched : List Token → List Token → Prop
  | none {ts : List Token} (h : BlocksMatch ts) : Unmatched ts []
  | opened {before after us : List Token} {opening : Token} (h : BlocksMatch before)
      (ho : opening.text = "$\x7b") (rest : Unmatched after us) :
      Unmatched (before ++ opening :: after) (opening :: us)

theorem blocksMatch_of_forall {ts : List Token}
    (h : ∀ t ∈ ts, t.text ≠ "$\x7b" ∧ t.text ≠ "$\x7d") : BlocksMatch ts := by
  induction ts with
  | nil => exact .nil
  | cons t ts ih =>
    obtain ⟨⟨ho, hc⟩, hts⟩ := List.forall_mem_cons.1 h
    exact .append (.other ho hc) (ih hts)

namespace Unmatched

variable {ts us : List Token}

theorem append (h : Unmatched ts us) {ts' : List Token} (h' : BlocksMatch ts') :
    Unmatched (ts ++ ts') us := by
  induction h with
  | none h => exact .none (h.append h')
  | opened h ho rest ih =>
    rw [List.append_assoc, List.cons_append]
    exact .opened h ho ih

theorem open_block (h : Unmatched ts us) {opening : Token} (ho : opening.text = "$\x7b") :
    Unmatched (ts ++ [opening]) (us ++ [opening]) := by
  induction h with
  | none h => exact .opened h ho (.none .nil)
  | opened h ho' rest ih =>
    rw [List.append_assoc, List.cons_append]
    exact .opened h ho' ih

/-- A `$}` closes the last block that is open. -/
theorem close_block {u : Token} (h : Unmatched ts (us ++ [u])) {close : Token}
    (hc : close.text = "$\x7d") : Unmatched (ts ++ [close]) us := by
  generalize hus : us ++ [u] = us' at h
  induction h generalizing us with
  | none h => simp at hus
  | @opened before after us' opening h ho rest ih =>
    rw [List.append_assoc, List.cons_append]
    cases us with
    | nil =>
      obtain ⟨rfl, rfl⟩ := List.cons.inj hus
      cases rest with
      | none hafter => exact .none (h.append (.block ho hc hafter))
    | cons u' us =>
      obtain ⟨rfl, hrest⟩ := List.cons.inj hus
      exact .opened h ho (ih hrest)

end Unmatched

/-- What a token does to the `${` that are open, the innermost first. -/
def track (pending : List Token) (t : Token) : List Token :=
  if t.text = "$\x7b" then t :: pending else if t.text = "$\x7d" then pending.tail else pending

theorem BlocksMatch.foldl_track {ts : List Token} (h : BlocksMatch ts) (pending : List Token) :
    ts.foldl track pending = pending := by
  induction h generalizing pending with
  | nil => rfl
  | other ho hc => simp [track, ho, hc]
  | block ho hc h ih => simp [track, ho, hc, ih]
  | append h h' ih ih' => rw [List.foldl_append, ih, ih']

theorem Unmatched.foldl_track {ts us : List Token} (h : Unmatched ts us) (pending : List Token) :
    ts.foldl track pending = us.reverse ++ pending := by
  induction h generalizing pending with
  | none h => exact h.foldl_track pending
  | opened h ho rest ih =>
    rw [List.foldl_append, h.foldl_track, List.foldl_cons, track, if_pos ho, ih]
    simp

/-- There is one list of the `${` without a `$}`. -/
theorem Unmatched.unique {ts us us' : List Token} (h : Unmatched ts us) (h' : Unmatched ts us') :
    us' = us := by
  have heq := (h'.foldl_track []).symm.trans (h.foldl_track [])
  simpa using heq

/-! ## Words of statements -/

theorem isMathSymbol_of_all {p : Char → Bool} (hp : p '$' = false) {s : String}
    (h : s.toList.all p) : isMathSymbol s := by
  simp only [isMathSymbol, Bool.not_eq_true', List.contains_eq_mem, decide_eq_false_iff_not]
  intro hmem
  rw [List.all_eq_true.1 h _ hmem] at hp
  cases hp

theorem isMathSymbol_of_isLabel {l : String} (h : isLabel l) : isMathSymbol l :=
  isMathSymbol_of_all (by decide) (Bool.and_eq_true_iff.1 h).2

theorem isMathSymbol_of_isLetterChunk {s : String} (h : isLetterChunk s) : isMathSymbol s :=
  isMathSymbol_of_all (by decide) h

/-- The words with a `$` in a labelled statement. -/
def clauseMarks : List String :=
  ["$f", "$e", "$a", "$p", "$=", "$."]

/-- The words with a `$` in a sentence. -/
def Sentence.marks : Sentence → List String
  | constants _ => ["$c", "$."]
  | vars _ => ["$v", "$."]
  | disjoint _ => ["$d", "$."]
  | openBlock => ["$\x7b"]
  | closeBlock => ["$\x7d"]
  | labelled _ _ => clauseMarks

theorem mem_words_of_segment {marks xs ws : List String} {k : String}
    (hk : isMathSymbol k ∨ k ∈ marks) (hxs : ∀ x ∈ xs, isMathSymbol x)
    (hws : ∀ w ∈ ws, isMathSymbol w ∨ w ∈ marks) :
    ∀ w ∈ k :: (xs ++ ws), isMathSymbol w ∨ w ∈ marks :=
  List.forall_mem_cons.2 ⟨hk, List.forall_mem_append.2 ⟨fun x hx => .inl (hxs x hx), hws⟩⟩

theorem WrittenProof.mem_words_of_check? {db : Database} (hdb : db.WellNamed) {thm : Assertion}
    {p : WrittenProof} {b : Bool} (h : p.check? db thm = some b) :
    ∀ w ∈ p.words, isMathSymbol w ∨ w ∈ clauseMarks := by
  obtain ⟨ha, hv, -⟩ := check?_eq_some_iff.1 h
  have hend : ∀ w ∈ ["$."], isMathSymbol w ∨ w ∈ clauseMarks := by decide
  cases p with
  | normal steps =>
    refine List.forall_mem_append.2 ⟨fun l hl => .inl ?_, hend⟩
    rcases names_of_checkNormal hv l hl with rfl | ⟨-, hn⟩
    · decide
    · exact isMathSymbol_of_isLabel (hdb.isLabel_of_names hn)
  | compressed labels chunks =>
    refine mem_words_of_segment (.inl (by decide)) (fun l hl => ?_)
      (mem_words_of_segment (.inl (by decide)) (fun c hc => ?_) hend)
    · exact isMathSymbol_of_isLabel (hdb.isLabel_of_names (ha.1 l hl).2.2)
    · exact isMathSymbol_of_isLetterChunk (ha.2 c hc)

theorem Clause.mem_words_of_declare {db db' : Database} (hdb : db.WellNamed) (hdb' : db'.WellNamed)
    {l : Label} {clause : Clause} (hd : db.declare (clause.declaration l) = .ok db') {ls : List Label}
    (h : (Sentence.labelled l clause).incomplete? db db' = some ls) :
    ∀ w ∈ clause.words, isMathSymbol w ∨ w ∈ clauseMarks := by
  have hend : ∀ w ∈ ["$."], isMathSymbol w ∨ w ∈ clauseMarks := by decide
  cases clause with
  | floating typecode v =>
    obtain ⟨-, htypecode, hv, -⟩ := Database.addFloating_eq_ok_iff.1 hd
    refine List.forall_mem_cons.2 ⟨.inr (by decide), List.forall_mem_cons.2 ⟨.inl ?_,
      List.forall_mem_cons.2 ⟨.inl ?_, hend⟩⟩⟩
    · exact hdb.symbols _ (.inl htypecode)
    · exact hdb.symbols _ (.inr (hdb.wellFormed.active_vars v hv))
  | essential e =>
    obtain ⟨-, he, -⟩ := Database.addEssential_eq_ok_iff.1 hd
    exact mem_words_of_segment (.inr (by decide)) (hdb.isMathSymbol_of_over he) hend
  | axiomatic e =>
    obtain ⟨⟨_, _⟩, ha, -⟩ := map_eq_ok_iff.1 hd
    obtain ⟨-, he, -⟩ := Database.addAssertion_eq_ok_iff.1 ha
    exact mem_words_of_segment (.inr (by decide)) (hdb.isMathSymbol_of_over he) hend
  | provable e proof =>
    obtain ⟨⟨_, _⟩, ha, -⟩ := map_eq_ok_iff.1 hd
    obtain ⟨-, he, -⟩ := Database.addAssertion_eq_ok_iff.1 ha
    obtain ⟨b, hb, -⟩ := Option.map_eq_some_iff.1 h
    exact mem_words_of_segment (.inr (by decide)) (hdb.isMathSymbol_of_over he)
      (List.forall_mem_cons.2 ⟨.inr (by decide), WrittenProof.mem_words_of_check? hdb' hb⟩)

/-- A sentence that can be performed holds no other words with a `$` than its marks. -/
theorem Sentence.mem_words_of_perform {st : Sentence} {r r' : Ledger} (hr : r.db.WellNamed)
    (hst : st.WellFormed) (h : st.perform r = some r') :
    ∀ w ∈ st.words, isMathSymbol w ∨ w ∈ st.marks := by
  have hr' := wellNamed_of_perform hr hst h
  obtain ⟨db, ls, hdb, hls, rfl⟩ := perform_eq_some_iff.1 h
  cases st with
  | constants symbols =>
    refine mem_words_of_segment (.inr (.head _)) (fun x hx => ?_)
      (List.forall_mem_singleton.2 (.inr (.tail _ (.head _))))
    obtain ⟨db₁, db₂, hd⟩ := Database.exists_declare_of_foldlM hdb (List.mem_map_of_mem hx)
    exact (Database.addConstant_eq_ok_iff.1 hd).2.1
  | vars symbols =>
    refine mem_words_of_segment (.inr (.head _)) (fun x hx => ?_)
      (List.forall_mem_singleton.2 (.inr (.tail _ (.head _))))
    obtain ⟨db₁, db₂, hd⟩ := Database.exists_declare_of_foldlM hdb (List.mem_map_of_mem hx)
    exact (Database.addVariable_eq_ok_iff.1 hd).1
  | disjoint symbols =>
    refine mem_words_of_segment (.inr (.head _)) (fun x hx => ?_)
      (List.forall_mem_singleton.2 (.inr (.tail _ (.head _))))
    obtain ⟨db₁, hd, -⟩ := foldlM_cons_eq_ok_iff.1 hdb
    obtain ⟨hactive, -⟩ := Database.addDisjoint_eq_ok_iff.1 hd
    exact hr.symbols x (.inr (hr.wellFormed.active_vars x (hactive x hx)))
  | openBlock => exact List.forall_mem_singleton.2 (.inr (.head _))
  | closeBlock => exact List.forall_mem_singleton.2 (.inr (.head _))
  | labelled l clause =>
    obtain ⟨db₁, hd, hdb⟩ := foldlM_cons_eq_ok_iff.1 hdb
    obtain rfl := Except.ok.inj hdb
    exact List.forall_mem_cons.2
      ⟨.inl (isMathSymbol_of_isLabel hst), Clause.mem_words_of_declare hr hr' hd hls⟩

theorem Sentence.notMem_marks {st : Sentence} (ho : st ≠ .openBlock) (hc : st ≠ .closeBlock) :
    "$\x7b" ∉ st.marks ∧ "$\x7d" ∉ st.marks := by
  cases st with
  | openBlock => exact absurd rfl ho
  | closeBlock => exact absurd rfl hc
  | _ => simp [marks, clauseMarks]

/-! ## Sessions between statements -/

namespace Session

variable {ending : Option Failure} {s s' : Session} {ts : List Token} {st : Statement}

theorem openings_execute (ending : Option Failure) (s : Session)
    (ho : ∀ keyword, st ≠ .openBlock keyword) (hc : ∀ keyword, st ≠ .closeBlock keyword) :
    (s.execute ending st).1.openings = s.openings := by
  fun_cases execute ending s st with
  | case1 => exact openings_executeSymbols ..
  | case2 => exact openings_executeSymbols ..
  | case3 keyword symbols => fun_cases executeDisjoint ending s keyword symbols <;> rfl
  | case4 keyword => exact absurd rfl (ho keyword)
  | case5 keyword => exact absurd rfl (hc keyword)
  | case6 => rfl
  | case7 => rfl
  | case8 => exact openings_executeBody ..

/-- A session that has come to the end of a statement after some tokens: it has the positions of the
`${` without a `$}`. -/
structure Tracks (s : Session) (ts : List Token) : Prop where
  wellNamed : s.db.WellNamed
  leveled : s.Leveled
  openings : ∃ us, Unmatched ts us ∧ s.openings.reverse = us.map Token.pos

theorem tracks_empty : Tracks {} [] where
  wellNamed := Database.wellNamed_empty
  leveled := rfl
  openings := ⟨[], .none .nil, rfl⟩

theorem Tracks.exists_innermost (hs : s.Tracks ts) {pos : Position} {outer : List Position}
    (ho : s.openings = pos :: outer) :
    ∃ us t, Unmatched ts (us ++ [t]) ∧ t.pos = pos ∧ outer.reverse = us.map Token.pos := by
  obtain ⟨us, hus, hpos⟩ := hs.openings
  rw [ho, List.reverse_cons] at hpos
  rcases List.eq_nil_or_concat' us with rfl | ⟨us, t, rfl⟩
  · simp at hpos
  · rw [List.map_append] at hpos
    obtain ⟨houter, hlast⟩ := List.append_inj' hpos rfl
    exact ⟨us, t, hus, (List.cons.inj hlast).1.symm, houter⟩

/-- A statement that neither opens nor closes a block leaves the open blocks alone. -/
theorem Tracks.append (hs : s.Tracks ts) (hs' : s'.db.WellNamed) (hlevel : s'.Leveled)
    (ho : s'.openings = s.openings) {ts' : List Token} (h : BlocksMatch ts') :
    s'.Tracks (ts ++ ts') where
  wellNamed := hs'
  leveled := hlevel
  openings := by
    obtain ⟨us, hus, hpos⟩ := hs.openings
    exact ⟨us, hus.append h, ho ▸ hpos⟩

theorem Tracks.execute (hs : s.Tracks ts)
    (hwords : ∀ sen, st.sentence? = some sen → st.tokens.map Token.text = sen.words)
    (h : s.execute ending st = (s', none)) : s'.Tracks (ts ++ st.tokens) := by
  obtain ⟨sen, hsen, hwell, hperform⟩ :=
    (ledger?_execute_iff ending).1 (by rw [h, Step.ledger?_accepted])
  have hwords := hwords sen hsen
  have hs' : s'.db.WellNamed := Sentence.wellNamed_of_perform hs.wellNamed hwell hperform
  have hlevel : s'.Leveled := hs.leveled.execute h
  -- all other statements hold neither `${` nor `$}`
  have hplain (ho : ∀ keyword, st ≠ .openBlock keyword) (hc : ∀ keyword, st ≠ .closeBlock keyword)
      (ho' : sen ≠ .openBlock) (hc' : sen ≠ .closeBlock) : s'.Tracks (ts ++ st.tokens) := by
    refine hs.append hs' hlevel ?_ (blocksMatch_of_forall fun t ht => ?_)
    · rw [← openings_execute ending s ho hc, h]
    · have hmem : t.text ∈ sen.words := hwords ▸ List.mem_map_of_mem ht
      obtain ⟨hopen, hclose⟩ := Sentence.notMem_marks ho' hc'
      rcases Sentence.mem_words_of_perform hs.wellNamed hwell hperform _ hmem with hw | hw
      · constructor <;> intro heq <;> rw [heq] at hw <;> revert hw <;> decide
      · exact ⟨fun heq => hopen (heq ▸ hw), fun heq => hclose (heq ▸ hw)⟩
  cases st with
  | openBlock keyword =>
    cases hsen
    have hk : keyword.text = "$\x7b" := (List.cons.inj hwords).1
    obtain ⟨us, hus, hpos⟩ := hs.openings
    refine ⟨hs', hlevel, us ++ [keyword], hus.open_block hk, ?_⟩
    cases h
    simp [log, hpos]
  | closeBlock keyword =>
    cases hsen
    have hk : keyword.text = "$\x7d" := (List.cons.inj hwords).1
    rw [Session.execute, executeClose] at h
    split at h
    · cases h
    · rename_i db hpop
      obtain ⟨outer, rest, hscopes, -⟩ := Database.popScope_eq_ok_iff.1 hpop
      have hne : s.openings ≠ [] := by
        intro ho
        have hlength := hs.leveled
        rw [Leveled, ho, hscopes] at hlength
        cases hlength
      obtain ⟨pos, outer, ho⟩ := List.exists_cons_of_ne_nil hne
      obtain ⟨us, t, hus, -, hpos⟩ := hs.exists_innermost ho
      cases h
      exact ⟨hs', hlevel, us, hus.close_block hk, by simp [log, ho, hpos]⟩
  | constants keyword symbols | vars keyword symbols | disjoint keyword symbols =>
    obtain ⟨xs, -, rfl⟩ := Option.map_eq_some_iff.1 hsen
    exact hplain (by simp) (by simp) (by simp) (by simp)
  | labelled label body =>
    obtain ⟨c, -, rfl⟩ := Option.map_eq_some_iff.1 hsen
    exact hplain (by simp) (by simp) (by simp) (by simp)

theorem Completes.tracks {sts : List Statement} (h : s.Completes ending sts s') (hs : s.Tracks ts)
    (hwords : ∀ st ∈ sts, ∀ sen, st.sentence? = some sen → st.tokens.map Token.text = sen.words) :
    s'.Tracks (ts ++ sts.flatMap Statement.tokens) := by
  induction h generalizing ts with
  | nil s => simpa using hs
  | cons first others ih =>
    obtain ⟨hfirst, hothers⟩ := List.forall_mem_cons.1 hwords
    rw [List.flatMap_cons, ← List.append_assoc]
    exact ih (hs.execute hfirst first) hothers

end Session

/-! ## Runs -/

theorem Session.Completes.tracks_statements {ending : Option Failure} {ts : List Token}
    {done rest : List Statement} (hsts : statements ts = done ++ rest) {s : Session}
    (h : Session.Completes ending {} done s) : s.Tracks (done.flatMap Statement.tokens) :=
  h.tracks Session.tracks_empty fun _ hst _ =>
    Statement.map_text_tokens (hsts ▸ List.mem_append_left rest hst)

/-- The statements before a statement are carried out, and then it fails with a diagnostic. -/
def Stream.FailsAt (stream : Stream) (st : Statement) (d : Diagnostic) : Prop :=
  ∃ done rest s, statements stream.tokens = done ++ st :: rest ∧
    Session.Completes stream.failure {} done s ∧
    (s.execute stream.failure st).2 = some (.diagnostic d)

/-- All statements are carried out, and the last `${` without a `$}` is left over. -/
def Stream.EndsInside (stream : Stream) (opening : Token) : Prop :=
  stream.failure = none ∧ (∃ s, Session.Completes none {} (statements stream.tokens) s) ∧
    ∃ us, Unmatched stream.tokens (us ++ [opening])

/-- Between statements the open blocks are those of the `${` without a `$}`. A run that fails with a
diagnostic of its own points at a token of the statement that fails, with its label or none, or at the
last `${` without a `$}` if the tokens end there. -/
theorem run_points (interrupt : Option Interrupt) (stream : Stream) :
    (∀ done rest s, statements stream.tokens = done ++ rest →
      Session.Completes stream.failure {} done s →
      ∃ us, (∀ us', Unmatched (done.flatMap Statement.tokens) us' ↔ us' = us) ∧
        s.openings.reverse = us.map Token.pos ∧ s.db.depth = us.length + 1) ∧
    ∀ d, (run interrupt stream).failure = some (.diagnostic d) →
      stream.failure ≠ some (.diagnostic d) →
      (∃ st, stream.FailsAt st d ∧ d.PointsAt st.label st.tokens) ∨
        ∃ opening, stream.EndsInside opening ∧ d.PointsAt "" [opening] := by
  refine ⟨fun done rest s hsts hdone => ?_, fun d h hsource => ?_⟩
  · have htracks := hdone.tracks_statements hsts
    obtain ⟨us, hus, hpos⟩ := htracks.openings
    refine ⟨us, fun us' => ⟨hus.unique, fun heq => heq ▸ hus⟩, hpos, ?_⟩
    have hlength := congrArg List.length hpos
    rw [List.length_reverse, List.length_map, htracks.leveled] at hlength
    rw [Database.depth, hlength]
  · obtain ⟨s', hrun⟩ : ∃ s', runFrom interrupt stream.failure {} 0 (statements stream.tokens) =
        (s', some (.diagnostic d)) := ⟨_, Prod.ext rfl h⟩
    obtain ⟨done, rest, s, hsts, hdone, hhalts, -⟩ :=
      exists_halts_of_runFrom Database.wellFormed_empty hrun
    generalize s'.db = db at hhalts
    generalize hf : Failure.diagnostic d = f at hhalts
    cases hhalts with
    | interrupted => cases hf
    | broken given => exact absurd (hf ▸ given) hsource
    | @unclosed pos outer ended openings =>
      cases hf
      have htracks := hdone.tracks_statements hsts
      rw [List.append_nil] at hsts
      rw [← hsts, flatMap_tokens_statements] at htracks
      rw [← hsts, ended] at hdone
      obtain ⟨us, opening, hus, rfl, -⟩ := htracks.exists_innermost openings
      exact .inr ⟨opening, ⟨ended, ⟨s, hdone⟩, us, hus⟩, rfl, .head _, .inl rfl⟩
    | @failed _ st rest _ fails leaves =>
      subst hf
      have hfault := s.faulted_execute stream.failure st
      rw [fails] at hfault
      obtain hending | ⟨d', hd, hpoints⟩ := hfault _ rfl
      · exact absurd hending hsource
      · cases hd
        exact .inl ⟨st, ⟨done, rest, s, hsts, hdone, by rw [fails]⟩, hpoints⟩

namespace Sample

/-- A block in a block, and only the inner one is closed. -/
def unclosed : Stream where
  tokens := [⟨"$\x7b", ⟨"", 0, 1, 1⟩⟩, ⟨"$v", ⟨"", 3, 1, 4⟩⟩, ⟨"x", ⟨"", 6, 1, 7⟩⟩,
    ⟨"$.", ⟨"", 8, 1, 9⟩⟩, ⟨"$\x7b", ⟨"", 11, 1, 12⟩⟩, ⟨"$\x7d", ⟨"", 14, 1, 15⟩⟩]

def unclosedFault : Diagnostic where
  cause := .statement .unclosedBlock
  stmt := "$\x7b"
  pos := ⟨"", 0, 1, 1⟩

/-- The statements before the last one. -/
def twoOpen : List Statement :=
  [.openBlock ⟨"$\x7b", ⟨"", 0, 1, 1⟩⟩,
    .vars ⟨"$v", ⟨"", 3, 1, 4⟩⟩ ⟨[⟨"x", ⟨"", 6, 1, 7⟩⟩], some ⟨"$.", ⟨"", 8, 1, 9⟩⟩⟩,
    .openBlock ⟨"$\x7b", ⟨"", 11, 1, 12⟩⟩]

theorem completes_twoOpen : ∃ s, Session.Completes none {} twoOpen s :=
  ⟨_, .cons rfl (.cons rfl (.cons rfl (.nil _)))⟩

end Sample

theorem unclosed_points :
    (run none Sample.unclosed).failure = some (.diagnostic Sample.unclosedFault) ∧
      ((∃ st, Sample.unclosed.FailsAt st Sample.unclosedFault ∧
          Sample.unclosedFault.PointsAt st.label st.tokens) ∨
        ∃ opening, Sample.unclosed.EndsInside opening ∧
          Sample.unclosedFault.PointsAt "" [opening]) ∧
      ∃ s us, Session.Completes none {} Sample.twoOpen s ∧
        (∀ us', Unmatched (Sample.twoOpen.flatMap Statement.tokens) us' ↔ us' = us) ∧
        s.openings.reverse = us.map Token.pos ∧ s.db.depth = us.length + 1 := by
  have h : (run none Sample.unclosed).failure = some (.diagnostic Sample.unclosedFault) := by
    decide +kernel
  have hsts : statements Sample.unclosed.tokens =
      Sample.twoOpen ++ [.closeBlock ⟨"$\x7d", ⟨"", 14, 1, 15⟩⟩] := by decide +kernel
  obtain ⟨hbetween, hfault⟩ := run_points none Sample.unclosed
  obtain ⟨s, hs⟩ := Sample.completes_twoOpen
  obtain ⟨us, hus⟩ := hbetween _ _ s hsts hs
  exact ⟨h, hfault Sample.unclosedFault h (by simp [Sample.unclosed]), s, us, hs, hus⟩

end Metamath
