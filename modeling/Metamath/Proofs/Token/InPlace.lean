import Metamath.Token.Inclusion

/-!
# Expansion in place

`InPlace` says what a file stands for when every included file is put in the place of the first
command that names it, and nothing in the place of the later ones. It follows the files as they are
nested, with the names that are taken so far, and stops at the first fault. Where the words of all
files come from a finite vocabulary every file stands for something, however the files include one
another (`exists_inPlace`), and `expand`, which keeps a pile of files instead, gives just that
(`InPlace.expandFrom_eq`).
-/

namespace Metamath

/-! ## Streams one after the other -/

/-- The tokens of the first stream and then those of the second, unless the first one fails. -/
def Stream.followedBy (s s' : Stream) : Stream :=
  match s.failure with
  | none => ⟨s.tokens ++ s'.tokens, s'.failure⟩
  | some _ => s

namespace Stream

@[simp] theorem followedBy_nil (s : Stream) : s.followedBy ⟨[], none⟩ = s := by
  obtain ⟨ts, failure⟩ := s
  cases failure <;> simp [followedBy]

theorem followedBy_of_failure {s : Stream} {f : Failure} (h : s.failure = some f) (s' : Stream) :
    s.followedBy s' = s := by
  rw [followedBy, h]

@[simp] theorem fail_followedBy (f : Failure) (s : Stream) : (fail f).followedBy s = fail f := rfl

@[simp] theorem cons_followedBy (t : Token) (s s' : Stream) :
    (s.cons t).followedBy s' = (s.followedBy s').cons t := by
  obtain ⟨ts, failure⟩ := s
  cases failure <;> rfl

theorem followedBy_assoc (s s' s'' : Stream) :
    (s.followedBy s').followedBy s'' = s.followedBy (s'.followedBy s'') := by
  obtain ⟨ts, failure⟩ := s
  obtain ⟨ts', failure'⟩ := s'
  cases failure <;> cases failure' <;> simp [followedBy]

end Stream

/-! ## Commands -/

/-- An inclusion command: `$[`, a name without `$`, and `$]`. -/
structure IsCommand (opening name close : Token) : Prop where
  opens : opening.text = "$["
  named : '$' ∉ name.text.toList
  closes : close.text = "$]"

/-- What is wrong with a command that `opening` begins. The other tokens of the file follow, and then
its end, which may be a failure. -/
inductive FaultyCommand (opening : Token) (failure : Option Failure) : List Token → Failure → Prop
  | noName : FaultyCommand opening failure []
      (failure.getD (inclusionFailure opening .unfinished))
  | badName {name : Token} {ts : List Token} (h : '$' ∈ name.text.toList) :
      FaultyCommand opening failure (name :: ts)
        (inclusionFailure name (.dollarInName name.text))
  | noClose {name : Token} (h : '$' ∉ name.text.toList) : FaultyCommand opening failure [name]
      (failure.getD (inclusionFailure opening .unfinished))
  | badClose {name close : Token} {ts : List Token} (h : '$' ∉ name.text.toList)
      (hc : close.text ≠ "$]") :
      FaultyCommand opening failure (name :: close :: ts) (inclusionFailure close .unclosed)

theorem faulty_or_command {opening : Token} (ho : opening.text = "$[") (failure : Option Failure)
    (ts : List Token) :
    (∃ f, FaultyCommand opening failure ts f) ∨
      ∃ name close rest, ts = name :: close :: rest ∧ IsCommand opening name close := by
  cases ts with
  | nil => exact .inl ⟨_, .noName⟩
  | cons name ts =>
    by_cases hn : '$' ∈ name.text.toList
    · exact .inl ⟨_, .badName hn⟩
    · cases ts with
      | nil => exact .inl ⟨_, .noClose hn⟩
      | cons close ts =>
        by_cases hc : close.text = "$]"
        · exact .inr ⟨name, close, ts, rfl, ho, hn, hc⟩
        · exact .inl ⟨_, .badClose hn hc⟩

/-! ## Files in place of commands -/

/-- `InPlace openFile seen file out seen'`: when the names in `seen` are taken, the file stands for the
stream `out`, and then the names in `seen'` are taken. -/
inductive InPlace (openFile : String → Except OpenError Source) :
    List String → Stream → Stream → List String → Prop
  | ended {seen : List String} {failure : Option Failure} :
      InPlace openFile seen ⟨[], failure⟩ ⟨[], failure⟩ seen
  | token {seen seen' : List String} {t : Token} {ts : List Token} {failure : Option Failure}
      {out : Stream} (ht : t.text ≠ "$[") (rest : InPlace openFile seen ⟨ts, failure⟩ out seen') :
      InPlace openFile seen ⟨t :: ts, failure⟩ (out.cons t) seen'
  | faulty {seen : List String} {t : Token} {ts : List Token} {failure : Option Failure}
      {f : Failure} (ht : t.text = "$[") (h : FaultyCommand t failure ts f) :
      InPlace openFile seen ⟨t :: ts, failure⟩ (.fail f) seen
  | taken {seen seen' : List String} {t name close : Token} {ts : List Token}
      {failure : Option Failure} {out : Stream} (hc : IsCommand t name close)
      (hs : name.text ∈ seen) (rest : InPlace openFile seen ⟨ts, failure⟩ out seen') :
      InPlace openFile seen ⟨t :: name :: close :: ts, failure⟩ out seen'
  | notOpened {seen : List String} {t name close : Token} {ts : List Token}
      {failure : Option Failure} {e : OpenError} (hc : IsCommand t name close)
      (hs : name.text ∉ seen) (ho : openFile name.text = .error e) :
      InPlace openFile seen ⟨t :: name :: close :: ts, failure⟩
        (.fail (.notIncluded name.pos name.text e)) (name.text :: seen)
  | included {seen seen₁ seen₂ : List String} {t name close : Token} {ts : List Token}
      {failure : Option Failure} {s : Source} {inner out : Stream} (hc : IsCommand t name close)
      (hs : name.text ∉ seen) (ho : openFile name.text = .ok s)
      (file : InPlace openFile (name.text :: seen) (s.lex name.text) inner seen₁)
      (hi : inner.failure = none) (rest : InPlace openFile seen₁ ⟨ts, failure⟩ out seen₂) :
      InPlace openFile seen ⟨t :: name :: close :: ts, failure⟩ (inner.followedBy out) seen₂
  | broken {seen seen₁ : List String} {t name close : Token} {ts : List Token}
      {failure : Option Failure} {s : Source} {inner : Stream} {f : Failure}
      (hc : IsCommand t name close) (hs : name.text ∉ seen) (ho : openFile name.text = .ok s)
      (file : InPlace openFile (name.text :: seen) (s.lex name.text) inner seen₁)
      (hi : inner.failure = some f) :
      InPlace openFile seen ⟨t :: name :: close :: ts, failure⟩ inner seen₁

/-! ## Every file stands for something -/

theorem length_unseen_le_of_subset {V seen seen' : List String} (h : seen ⊆ seen') :
    (unseen V seen').length ≤ (unseen V seen).length := by
  rw [unseen, unseen, ← List.countP_eq_length_filter, ← List.countP_eq_length_filter]
  refine List.countP_mono_left fun v _ hv => ?_
  have hv' : v ∉ seen' := by simpa using hv
  simpa using fun hs => hv' (h hs)

section Exists

variable {openFile : String → Except OpenError Source} {V : List String}

/-- A file stands for something, whatever it includes, as long as the words of all files are in a
finite vocabulary: a file is only entered under a new name. -/
theorem exists_inPlace (hV : ∀ name s, openFile name = .ok s → s.words ⊆ V) (seen : List String)
    (failure : Option Failure) (ts : List Token) (hts : ∀ t ∈ ts, t.text ∈ V) :
    ∃ out seen', InPlace openFile seen ⟨ts, failure⟩ out seen' ∧ seen ⊆ seen' := by
  match ts with
  | [] => exact ⟨_, _, .ended, List.Subset.refl _⟩
  | t :: ts =>
    by_cases ht : t.text = "$["
    · obtain ⟨f, hf⟩ | ⟨name, close, rest, heq, hc⟩ := faulty_or_command ht failure ts
      · exact ⟨_, _, .faulty ht hf, List.Subset.refl _⟩
      · have hlen : rest.length < (t :: ts).length := by
          simp only [heq, List.length_cons]
          omega
        rw [heq] at hts ⊢
        have hrest : ∀ t ∈ rest, t.text ∈ V := fun t ht => hts t (by simp [ht])
        have hname : name.text ∈ V := hts name (by simp)
        by_cases hs : name.text ∈ seen
        · obtain ⟨out, seen', h, hsub⟩ := exists_inPlace hV seen failure rest hrest
          exact ⟨out, seen', .taken hc hs h, hsub⟩
        · cases ho : openFile name.text with
          | error e => exact ⟨_, _, .notOpened hc hs ho, List.subset_cons_self _ _⟩
          | ok s =>
            have hlt := length_unseen_cons_lt hname hs
            have hwords : ∀ t ∈ (s.lex name.text).tokens, t.text ∈ V :=
              fun t ht => hV name.text s ho (text_mem_words ht)
            obtain ⟨inner, seen₁, h₁, hsub₁⟩ :=
              exists_inPlace hV (name.text :: seen) (s.lex name.text).failure
                (s.lex name.text).tokens hwords
            have hsub : seen ⊆ seen₁ := List.Subset.trans (List.subset_cons_self _ _) hsub₁
            cases hi : inner.failure with
            | some f => exact ⟨_, _, .broken hc hs ho h₁ hi, hsub⟩
            | none =>
              -- the name is still taken when the rest of the file is read
              have hle : (unseen V seen₁).length ≤ (unseen V (name.text :: seen)).length :=
                length_unseen_le_of_subset hsub₁
              obtain ⟨out, seen₂, h₂, hsub₂⟩ := exists_inPlace hV seen₁ failure rest hrest
              exact ⟨_, _, .included hc hs ho h₁ hi h₂, List.Subset.trans hsub hsub₂⟩
    · obtain ⟨out, seen', h, hsub⟩ :=
        exists_inPlace hV seen failure ts fun t ht => hts t (.tail _ ht)
      exact ⟨_, _, .token ht h, hsub⟩
termination_by ((unseen V seen).length, ts.length)
decreasing_by
  · exact Prod.Lex.right _ hlen
  · exact Prod.Lex.left _ _ hlt
  · exact Prod.Lex.left _ _ (Nat.lt_of_le_of_lt hle hlt)
  · exact Prod.Lex.right _ (Nat.lt_succ_self _)

end Exists

/-! ## Expansion by a pile of files -/

theorem readItems_of_token {t : Token} (ht : t.text ≠ "$[") (failure : Option Failure)
    (ts : List Token) : readItems failure (t :: ts) =
      (.token t :: (readItems failure ts).1, (readItems failure ts).2) := by
  rw [readItems.eq_def]
  exact if_neg ht

theorem readItems_of_faulty {t : Token} (ht : t.text = "$[") {failure : Option Failure}
    {ts : List Token} {f : Failure} (h : FaultyCommand t failure ts f) :
    readItems failure (t :: ts) = ([], some f) := by
  rw [readItems.eq_def]
  cases h with
  | noName => simp [ht]
  | badName hn => simp [ht, hn]
  | noClose hn => simp [ht, hn]
  | badClose hn hc => simp [ht, hn, hc]

theorem readItems_of_command {t name close : Token} (hc : IsCommand t name close)
    (failure : Option Failure) (ts : List Token) :
    readItems failure (t :: name :: close :: ts) =
      (.inclusion name :: (readItems failure ts).1, (readItems failure ts).2) := by
  simp [readItems, hc.opens, hc.named, hc.closes]

/-- A file of which the tokens of a stream are left. -/
def Reading.ofStream {V : List String} (s : Stream) (h : ∀ t ∈ s.tokens, t.text ∈ V) :
    Reading V where
  items := (readItems s.failure s.tokens).1
  failure := (readItems s.failure s.tokens).2
  names_mem _ hn := h _ (mem_of_inclusion_mem_readItems hn)

section Expand

variable {o : Opener} {V : List String} (hV : o.vocabulary ⊆ V) (seen : List String)
  (pile : List (Reading V))

theorem expandFrom_token {t : Token} (ht : t.text ≠ "$[") {ts : List Token}
    {failure : Option Failure} (hw : ∀ t' ∈ t :: ts, t'.text ∈ V) :
    expandFrom o hV seen (.ofStream ⟨t :: ts, failure⟩ hw :: pile) =
      (expandFrom o hV seen
        (.ofStream ⟨ts, failure⟩ (fun _ h => hw _ (.tail _ h)) :: pile)).cons t := by
  simp only [Reading.ofStream, readItems_of_token ht]
  rw [expandFrom]

theorem expandFrom_faulty {t : Token} (ht : t.text = "$[") {ts : List Token}
    {failure : Option Failure} {f : Failure} (h : FaultyCommand t failure ts f)
    (hw : ∀ t' ∈ t :: ts, t'.text ∈ V) :
    expandFrom o hV seen (.ofStream ⟨t :: ts, failure⟩ hw :: pile) = .fail f := by
  simp only [Reading.ofStream, readItems_of_faulty ht h]
  rw [expandFrom]

variable {t name close : Token} (hc : IsCommand t name close) {ts : List Token}
  {failure : Option Failure} (hw : ∀ t' ∈ t :: name :: close :: ts, t'.text ∈ V)

include hc

theorem expandFrom_taken (hs : name.text ∈ seen) :
    expandFrom o hV seen (.ofStream ⟨t :: name :: close :: ts, failure⟩ hw :: pile) =
      expandFrom o hV seen
        (.ofStream ⟨ts, failure⟩ (fun _ h => hw _ (by simp_all)) :: pile) := by
  simp only [Reading.ofStream, readItems_of_command hc]
  rw [expandFrom, dif_pos hs]

theorem expandFrom_notOpened (hs : name.text ∉ seen) {e : OpenError}
    (ho : o.openFile name.text = .error e) :
    expandFrom o hV seen (.ofStream ⟨t :: name :: close :: ts, failure⟩ hw :: pile) =
      .fail (.notIncluded name.pos name.text e) := by
  simp only [Reading.ofStream, readItems_of_command hc]
  rw [expandFrom, dif_neg hs]
  split <;> simp_all

theorem expandFrom_opened (hs : name.text ∉ seen) {s : Source}
    (ho : o.openFile name.text = .ok s) :
    expandFrom o hV seen (.ofStream ⟨t :: name :: close :: ts, failure⟩ hw :: pile) =
      expandFrom o hV (name.text :: seen)
        (.ofStream (s.lex name.text) (fun _ h => hV (o.words_subset ho (text_mem_words h))) ::
          .ofStream ⟨ts, failure⟩ (fun _ h => hw _ (by simp_all)) :: pile) := by
  simp only [Reading.ofStream, readItems_of_command hc]
  rw [expandFrom, dif_neg hs]
  split
  · simp_all
  · rename_i s' ho'
    obtain rfl := Except.ok.inj (ho'.symm.trans ho)
    rfl

end Expand

/-- The pile gives what the file on top stands for, and goes on with the files below. -/
theorem InPlace.expandFrom_eq {o : Opener} {V : List String} (hV : o.vocabulary ⊆ V)
    {seen seen' : List String} {file out : Stream} (h : InPlace o.openFile seen file out seen')
    (hw : ∀ t ∈ file.tokens, t.text ∈ V) (pile : List (Reading V)) :
    expandFrom o hV seen (.ofStream file hw :: pile) =
      out.followedBy (expandFrom o hV seen' pile) := by
  induction h generalizing pile with
  | @ended seen failure =>
    cases failure <;> simp [Reading.ofStream, readItems, expandFrom, Stream.followedBy, Stream.fail]
  | token ht rest ih => rw [expandFrom_token hV _ pile ht, ih, Stream.cons_followedBy]
  | faulty ht h => rw [expandFrom_faulty hV _ pile ht h, Stream.fail_followedBy]
  | taken hc hs rest ih => rw [expandFrom_taken hV _ pile hc _ hs, ih]
  | notOpened hc hs ho =>
    rw [expandFrom_notOpened hV _ pile hc _ hs ho, Stream.fail_followedBy]
  | included hc hs ho file hi rest ih₁ ih₂ =>
    rw [expandFrom_opened hV _ pile hc _ hs ho, ih₁, ih₂, Stream.followedBy_assoc]
  | broken hc hs ho file hi ih =>
    rw [expandFrom_opened hV _ pile hc _ hs ho, ih, Stream.followedBy_of_failure hi,
      Stream.followedBy_of_failure hi]

/-- A text expands to what it stands for. -/
theorem InPlace.expand_eq {o : Opener} {file : String} {s : Source} {out : Stream}
    {seen : List String} (h : InPlace o.openFile [file] (s.lex file) out seen) :
    expand o file s = out := by
  have heq := h.expandFrom_eq (V := s.words ++ o.vocabulary) (List.subset_append_right _ _)
    (fun t ht => List.mem_append_left _ (text_mem_words ht)) []
  rwa [expandFrom, Stream.followedBy_nil] at heq

theorem inPlace_of_no_command (openFile : String → Except OpenError Source) (seen : List String)
    (failure : Option Failure) {ts : List Token} (h : ∀ t ∈ ts, t.text ≠ "$[") :
    InPlace openFile seen ⟨ts, failure⟩ ⟨ts, failure⟩ seen := by
  induction ts with
  | nil => exact .ended
  | cons t ts ih =>
    exact .token (h t (.head _)) (ih fun t' ht' => h t' (.tail _ ht'))

/-- Without commands nothing is replaced. -/
theorem expand_of_no_command (o : Opener) {file : String} {s : Source}
    (h : ∀ t ∈ (s.lex file).tokens, t.text ≠ "$[") : expand o file s = s.lex file :=
  (inPlace_of_no_command o.openFile [file] (s.lex file).failure h).expand_eq

end Metamath
