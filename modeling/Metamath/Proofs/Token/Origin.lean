import Metamath.Proofs.Token.Requests
import Metamath.Proofs.Token.Scan

/-!
# Where tokens come from

The cursor of a file only moves over its bytes, so that every token and every fault of a file stands
at one of them (`PlaceIn`, `Source.sourced_lex`). Expansion takes tokens from files and adds none: if
a property holds of all places in the files that can be opened, it holds of the position of every
token of the expanded text and of the diagnostic that may end it, which is always one that ends a
run (`sourced_expand`).
-/

namespace Metamath

/-! ## Places in a text -/

/-- The place of a byte in a text that begins at a given place. -/
def PlaceIn (start : Cursor) (bs : Bytes) (c : Cursor) : Prop :=
  ∃ before b after, bs = before ++ b :: after ∧ c = start.advanceAll before

theorem Cursor.line_advanceAll (c : Cursor) (bs : Bytes) :
    (c.advanceAll bs).line = c.line + bs.countP (· == 10) := by
  induction bs generalizing c with
  | nil => rfl
  | cons b bs ih =>
    have hstep : c.advanceAll (b :: bs) = (c.advance b).advanceAll bs := rfl
    rw [hstep, ih, List.countP_cons]
    by_cases hb : b = 10
    · simp [Cursor.advance, hb]
      omega
    · simp [Cursor.advance, hb]

namespace PlaceIn

variable {start c : Cursor} {bs bs' : Bytes}

theorem head (start : Cursor) (b : UInt8) (bs : Bytes) : PlaceIn start (b :: bs) start :=
  ⟨[], b, bs, rfl, rfl⟩

theorem of_ne_nil (start : Cursor) (h : bs ≠ []) : PlaceIn start bs start := by
  obtain ⟨b, bs, rfl⟩ := List.exists_cons_of_ne_nil h
  exact head start b bs

theorem append_right (h : PlaceIn start bs c) (bs' : Bytes) : PlaceIn start (bs ++ bs') c := by
  obtain ⟨before, b, after, rfl, rfl⟩ := h
  exact ⟨before, b, after ++ bs', by simp, rfl⟩

theorem append_left (h : PlaceIn (start.advanceAll bs) bs' c) : PlaceIn start (bs ++ bs') c := by
  obtain ⟨before, b, after, rfl, rfl⟩ := h
  exact ⟨bs ++ before, b, after, by simp, (Cursor.advanceAll_append _ _ _).symm⟩

/-- The line of a place is one of the lines of the text. -/
theorem exists_line (h : PlaceIn {} bs c) : ∃ line, bs.lines[c.line - 1]? = some line := by
  obtain ⟨before, b, after, rfl, rfl⟩ := h
  have hline : (Cursor.advanceAll {} before).line = 1 + before.countP (· == 10) :=
    Cursor.line_advanceAll _ _
  have hlt : (Cursor.advanceAll {} before).line - 1 < (Bytes.lines (before ++ b :: after)).length := by
    rw [Bytes.lines, Text.length_splitWhere, List.countP_append, hline]
    omega
  exact ⟨_, List.getElem?_eq_getElem hlt⟩

end PlaceIn

/-! ## Runs -/

/-- A run has bytes, and they are bytes of the text, at the places of the text. -/
theorem placeIn_of_mem_runsFrom {c : Cursor} {bs : Bytes} {r : Run} (h : r ∈ runsFrom c bs) :
    r.bytes ≠ [] ∧ ∀ p, PlaceIn r.start r.bytes p → PlaceIn c bs p := by
  fun_induction runsFrom c bs with
  | case1 => cases h
  | case2 c bs b rest hb start word after ih =>
    have hbs : bs = bs.takeWhile isSeparator ++ (word ++ after) := by
      rw [List.cons_append, List.takeWhile_append_dropWhile, ← hb,
        List.takeWhile_append_dropWhile]
    rw [hbs]
    rcases List.mem_cons.1 h with rfl | h
    · exact ⟨List.cons_ne_nil _ _, fun p hp => .append_left (hp.append_right _)⟩
    · obtain ⟨hne, hplace⟩ := ih h
      exact ⟨hne, fun p hp => .append_left (.append_left (hplace p hp))⟩

theorem placeIn_of_firstInvalid {c p : Cursor} {bs : Bytes} {b : UInt8}
    (h : firstInvalid c bs = some (p, b)) : PlaceIn c bs p := by
  fun_induction firstInvalid c bs with
  | case1 => cases h
  | case2 c b' bs hb ih =>
    show PlaceIn c ([b'] ++ bs) p
    exact .append_left (ih h)
  | case3 c b' bs hb =>
    cases h
    exact .head _ _ _

/-! ## Positions that a stream has -/

/-- A failure that tells of a text whose positions have a property: a diagnostic stands at one of
them and ends the run. Texts are not interrupted. -/
def Failure.Sourced (P : Position → Prop) : Failure → Prop
  | diagnostic d => d.kind.isFatal ∧ P d.pos
  | interrupted _ => False
  | _ => True

/-- All positions in a stream have a property. -/
structure Stream.Sourced (P : Position → Prop) (st : Stream) : Prop where
  text_ne : ∀ t ∈ st.tokens, t.text ≠ ""
  pos : ∀ t ∈ st.tokens, P t.pos
  failure : ∀ f, st.failure = some f → f.Sourced P

section Sourced

variable {P : Position → Prop}

theorem sourced_lexFailure {file : String} {c : Cursor} (h : P (c.position file)) (e : LexError) :
    (lexFailure file c e).Sourced P :=
  ⟨rfl, h⟩

theorem sourced_inclusionFailure {t : Token} (h : P t.pos) (e : InclusionError) :
    (inclusionFailure t e).Sourced P :=
  ⟨rfl, h⟩

namespace Stream.Sourced

theorem fail {f : Failure} (h : f.Sourced P) : (Stream.fail f).Sourced P where
  text_ne := nofun
  pos := nofun
  failure := by simpa using h

theorem cons {t : Token} {st : Stream} (h : st.Sourced P) (ht : t.text ≠ "") (hp : P t.pos) :
    (st.cons t).Sourced P where
  text_ne := by simpa using ⟨ht, h.text_ne⟩
  pos := by simpa using ⟨hp, h.pos⟩
  failure := h.failure

theorem tail {t : Token} {ts : List Token} {failure : Option Failure}
    (h : Stream.Sourced P ⟨t :: ts, failure⟩) : Stream.Sourced P ⟨ts, failure⟩ where
  text_ne t' ht' := h.text_ne t' (.tail _ ht')
  pos t' ht' := h.pos t' (.tail _ ht')
  failure := h.failure

theorem followedBy {st st' : Stream} (h : st.Sourced P) (h' : st'.Sourced P) :
    (st.followedBy st').Sourced P := by
  unfold Stream.followedBy
  split
  · exact {
      text_ne := fun t ht => (List.mem_append.1 ht).elim (h.text_ne t) (h'.text_ne t)
      pos := fun t ht => (List.mem_append.1 ht).elim (h.pos t) (h'.pos t)
      failure := h'.failure }
  · exact h

end Stream.Sourced

theorem Run.text_ne {r : Run} (h : r.bytes ≠ []) : r.text ≠ "" := by
  intro ht
  have hlist : r.text.toList = [] := by simp [ht]
  simp only [Run.text, toList_latin1, List.map_eq_nil_iff] at hlist
  exact h hlist

/-- The tokens and the faults of a list of runs stand in the runs. -/
theorem sourced_scan {file : String} {failure : Option Failure} {comment : Option Cursor}
    {rs : List Run} (hfailure : ∀ f, failure = some f → f.Sourced P)
    (hcomment : ∀ c, comment = some c → P (c.position file))
    (hrs : ∀ r ∈ rs, r.bytes ≠ [] ∧ ∀ p, PlaceIn r.start r.bytes p → P (p.position file)) :
    (scan file failure comment rs).Sourced P := by
  have hstart : ∀ r ∈ rs, P (r.start.position file) := fun r hr =>
    (hrs r hr).2 _ (.of_ne_nil _ (hrs r hr).1)
  have houtside : ∀ c, (none : Option Cursor) = some c → P (c.position file) := by simp
  fun_induction scan file failure comment rs with
  | case1 => exact ⟨List.forall_mem_nil _, List.forall_mem_nil _, hfailure⟩
  | case2 opening =>
    cases failure with
    | none => exact .fail (sourced_lexFailure (hcomment _ rfl) _)
    | some f => exact .fail (hfailure f rfl)
  | case3 comment r rs c b hb =>
    exact .fail (sourced_lexFailure ((hrs r (.head _)).2 _ (placeIn_of_firstInvalid hb)) _)
  | case4 => exact ⟨List.forall_mem_nil _, List.forall_mem_nil _, hfailure⟩
  | case5 r rs hb ho hopen ih =>
    refine ih ?_ (fun r' hr' => hrs r' (.tail _ hr')) fun r' hr' => hstart r' (.tail _ hr')
    rintro c ⟨⟩
    exact hstart r (.head _)
  | case6 r rs => exact .fail (sourced_lexFailure (hstart r (.head _)) _)
  | case7 r rs hb ho hopen hd ih =>
    refine (ih houtside (fun r' hr' => hrs r' (.tail _ hr'))
      fun r' hr' => hstart r' (.tail _ hr')).cons ?_ (hstart r (.head _))
    exact Run.text_ne (hrs r (.head _)).1
  | case8 r rs hb ho opening hclose ih =>
    exact ih houtside (fun r' hr' => hrs r' (.tail _ hr')) fun r' hr' => hstart r' (.tail _ hr')
  | case9 r rs => exact .fail (sourced_lexFailure (hstart r (.head _)) _)
  | case10 r rs => exact .fail (sourced_lexFailure (hstart r (.head _)) _)
  | case11 r rs hb ho opening hclose ho' hc' ih =>
    exact ih hcomment (fun r' hr' => hrs r' (.tail _ hr')) fun r' hr' => hstart r' (.tail _ hr')

/-- The tokens and the faults of a file stand in it. -/
theorem Source.sourced_lex {file : String} {s : Source}
    (hfailure : ∀ f, s.failure = some f → f.Sourced P)
    (hplace : ∀ p, PlaceIn {} s.bytes p → P (p.position file)) : (s.lex file).Sourced P := by
  rw [lex_eq_scan]
  refine sourced_scan hfailure nofun fun r hr => ?_
  obtain ⟨hne, hin⟩ := placeIn_of_mem_runsFrom hr
  exact ⟨hne, fun p hp => hplace p (hin p hp)⟩

theorem FaultyCommand.sourced {t : Token} {ts : List Token} {failure : Option Failure} {f : Failure}
    (h : FaultyCommand t failure ts f) (hst : Stream.Sourced P ⟨t :: ts, failure⟩) :
    f.Sourced P := by
  have hend : (failure.getD (inclusionFailure t .unfinished)).Sourced P := by
    cases failure with
    | none => exact sourced_inclusionFailure (hst.pos t (.head _)) _
    | some f => exact hst.failure f rfl
  cases h with
  | noName => exact hend
  | badName => exact sourced_inclusionFailure (hst.pos _ (.tail _ (.head _))) _
  | noClose => exact hend
  | badClose => exact sourced_inclusionFailure (hst.pos _ (.tail _ (.tail _ (.head _)))) _

theorem InPlace.subset {openFile : String → Except OpenError Source} {seen seen' : List String}
    {st out : Stream} (h : InPlace openFile seen st out seen') : seen ⊆ seen' := by
  induction h with
  | ended | faulty => exact List.Subset.refl _
  | token _ _ ih => exact ih
  | taken _ _ _ ih => exact ih
  | notOpened => exact List.subset_cons_self _ _
  | included _ _ _ _ _ _ ih₁ ih₂ =>
    exact List.Subset.trans (List.subset_of_cons_subset ih₁) ih₂
  | broken _ _ _ _ _ ih => exact List.subset_of_cons_subset ih

/-- What a file stands for has positions in the file itself and in files that are opened by another
name than one that is taken at the start. -/
theorem InPlace.sourced {openFile : String → Except OpenError Source} {file : String}
    {seen seen' : List String} {st out : Stream} (h : InPlace openFile seen st out seen')
    (hopen : ∀ name s, name ≠ "" → name ≠ file → openFile name = .ok s → (s.lex name).Sourced P)
    (hfile : file ∈ seen) (hst : st.Sourced P) : out.Sourced P := by
  induction h with
  | ended => exact hst
  | token ht rest ih =>
    exact (ih hfile hst.tail).cons (hst.text_ne _ (.head _)) (hst.pos _ (.head _))
  | faulty ht h => exact .fail (h.sourced hst)
  | taken hc hs rest ih => exact ih hfile hst.tail.tail.tail
  | notOpened => exact .fail trivial
  | @included seen seen₁ _ t name _ _ _ s _ _ hc hs ho inner hi rest ih₁ ih₂ =>
    have hname : name.text ≠ "" := hst.text_ne name (.tail _ (.head _))
    have hne : name.text ≠ file := fun h => hs (h ▸ hfile)
    have hfile₁ : file ∈ name.text :: seen := .tail _ hfile
    exact (ih₁ hfile₁ (hopen _ _ hname hne ho)).followedBy
      (ih₂ (inner.subset hfile₁) hst.tail.tail.tail)
  | @broken seen _ t name _ _ _ s _ _ hc hs ho inner hi ih =>
    have hname : name.text ≠ "" := hst.text_ne name (.tail _ (.head _))
    have hne : name.text ≠ file := fun h => hs (h ▸ hfile)
    exact ih (.tail _ hfile) (hopen _ _ hname hne ho)

/-- The positions in an expanded text are those of the text itself and of the files that are opened
by other names. -/
theorem sourced_expand {o : Opener} {file : String} {s : Source} (hs : (s.lex file).Sourced P)
    (hopen : ∀ name s', name ≠ "" → name ≠ file → o.openFile name = .ok s' →
      (s'.lex name).Sourced P) :
    (expand o file s).Sourced P := by
  obtain ⟨out, seen, h⟩ := exists_inPlace_lex o file s
  rw [h.expand_eq]
  exact h.sourced hopen (List.mem_singleton_self file) hs

end Sourced

end Metamath
