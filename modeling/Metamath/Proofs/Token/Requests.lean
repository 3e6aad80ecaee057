import Mathlib.Data.Set.Finite.Basic
import Metamath.Proofs.Token.InPlace

/-!
# Reading token by token

A text is read on request, one token at a time. A `FilePile` holds what is left of the files that are
being read, and a request takes turns (`turn`) until one of them gives an answer: a turn leaves a file
that is read to its end, or deals with an inclusion command. `Drains` is a sequence of requests up to
the end of the text or a failure. `expand_in_place` says that there always is one when the files have
finitely many contents, that it gives what the text stands for when every file is put in its place,
and that it opens no name twice.
-/

namespace Metamath

/-- A text in the middle of being read: the names that are taken, and what is left of the files, the
innermost first. -/
structure FilePile where
  seen : List String
  files : List Stream

namespace FilePile

/-- What a request for a token is answered with. -/
inductive Answer where
  | token (t : Token) (rest : FilePile)
  | finished
  | failed (f : Failure)

/-- What a turn comes to: an answer, or another turn. `opened` is the name that it opened. -/
inductive Turn where
  | answer (opened : Option String) (a : Answer)
  | again (opened : Option String) (p : FilePile)

/-- The turn that reads an inclusion command. `ts` is what follows its first token in the file on top,
and `files` are the files below. -/
def turnCommand (openFile : String → Except OpenError Source) (seen : List String)
    (opening : Token) (ts : List Token) (failure : Option Failure) (files : List Stream) : Turn :=
  match ts with
  | [] => .answer none (.failed (failure.getD (inclusionFailure opening .unfinished)))
  | name :: ts =>
    if '$' ∈ name.text.toList then
      .answer none (.failed (inclusionFailure name (.dollarInName name.text)))
    else match ts with
      | [] => .answer none (.failed (failure.getD (inclusionFailure opening .unfinished)))
      | close :: ts =>
        if close.text ≠ "$]" then .answer none (.failed (inclusionFailure close .unclosed))
        else if name.text ∈ seen then .again none ⟨seen, ⟨ts, failure⟩ :: files⟩
        else match openFile name.text with
          | .error e =>
            .answer (some name.text) (.failed (.notIncluded name.pos name.text e))
          | .ok s =>
            .again (some name.text)
              ⟨name.text :: seen, s.lex name.text :: ⟨ts, failure⟩ :: files⟩

/-- One turn of a request. -/
def turn (openFile : String → Except OpenError Source) (p : FilePile) : Turn :=
  match p.files with
  | [] => .answer none .finished
  | ⟨[], none⟩ :: files => .again none { p with files }
  | ⟨[], some f⟩ :: _ => .answer none (.failed f)
  | ⟨t :: ts, failure⟩ :: files =>
    if t.text = "$[" then turnCommand openFile p.seen t ts failure files
    else .answer none (.token t { p with files := ⟨ts, failure⟩ :: files })

variable {openFile : String → Except OpenError Source} {p p' : FilePile}

/-- A request: turns up to the first that gives an answer, and the names that they open. -/
inductive Request (openFile : String → Except OpenError Source) :
    FilePile → List String → Answer → Prop
  | answer {p : FilePile} {opened : Option String} {a : Answer}
      (h : p.turn openFile = .answer opened a) : Request openFile p opened.toList a
  | again {p p' : FilePile} {opened : Option String} {names : List String} {a : Answer}
      (h : p.turn openFile = .again opened p') (rest : Request openFile p' names a) :
      Request openFile p (opened.toList ++ names) a

/-- Requests up to the end of the text or a failure: the names that they open, and the tokens and the
failure that they are answered with. -/
inductive Drains (openFile : String → Except OpenError Source) :
    FilePile → List String → Stream → Prop
  | finished {p : FilePile} {names : List String} (h : Request openFile p names .finished) :
      Drains openFile p names ⟨[], none⟩
  | failed {p : FilePile} {names : List String} {f : Failure}
      (h : Request openFile p names (.failed f)) : Drains openFile p names (.fail f)
  | token {p p' : FilePile} {names names' : List String} {t : Token} {out : Stream}
      (h : Request openFile p names (.token t p')) (rest : Drains openFile p' names' out) :
      Drains openFile p (names ++ names') (out.cons t)

theorem Drains.again {opened : Option String} {names : List String} {out : Stream}
    (h : p.turn openFile = .again opened p') (hd : Drains openFile p' names out) :
    Drains openFile p (opened.toList ++ names) out := by
  cases hd with
  | finished hr => exact .finished (.again h hr)
  | failed hr => exact .failed (.again h hr)
  | token hr rest =>
    rw [← List.append_assoc]
    exact .token (.again h hr) rest

/-! ## There is one way to read a text -/

theorem Request.unique {names names' : List String} {a a' : Answer}
    (h : Request openFile p names a) (h' : Request openFile p names' a') :
    names = names' ∧ a = a' := by
  induction h generalizing names' with
  | answer ht =>
    cases h' with
    | answer ht' =>
      rw [ht] at ht'
      cases ht'
      exact ⟨rfl, rfl⟩
    | again ht' rest' =>
      rw [ht] at ht'
      cases ht'
  | again ht rest ih =>
    cases h' with
    | answer ht' =>
      rw [ht] at ht'
      cases ht'
    | again ht' rest' =>
      rw [ht] at ht'
      cases ht'
      obtain ⟨rfl, rfl⟩ := ih rest'
      exact ⟨rfl, rfl⟩

theorem Drains.unique {names names' : List String} {out out' : Stream}
    (h : Drains openFile p names out) (h' : Drains openFile p names' out') :
    names = names' ∧ out = out' := by
  induction h generalizing names' out' with
  | finished hr =>
    cases h' with
    | finished hr' => exact ⟨(hr.unique hr').1, rfl⟩
    | failed hr' => cases (hr.unique hr').2
    | token hr' rest' => cases (hr.unique hr').2
  | failed hr =>
    cases h' with
    | finished hr' => cases (hr.unique hr').2
    | failed hr' =>
      obtain ⟨rfl, ha⟩ := hr.unique hr'
      cases ha
      exact ⟨rfl, rfl⟩
    | token hr' rest' => cases (hr.unique hr').2
  | token hr rest ih =>
    cases h' with
    | finished hr' => cases (hr.unique hr').2
    | failed hr' => cases (hr.unique hr').2
    | token hr' rest' =>
      obtain ⟨rfl, ha⟩ := hr.unique hr'
      cases ha
      obtain ⟨rfl, rfl⟩ := ih rest'
      exact ⟨rfl, rfl⟩

/-! ## No name is opened twice -/

/-- The pile that a turn leaves behind, if there is one. -/
def Turn.rest? : Turn → Option FilePile
  | answer _ (.token _ p) => some p
  | answer _ _ => none
  | again _ p => some p

/-- The name that a turn opens. -/
def Turn.opened : Turn → Option String
  | answer opened _ => opened
  | again opened _ => opened

/-- A turn opens a name only if it is not taken yet, and takes it. -/
theorem turn_opened (openFile : String → Except OpenError Source) (p : FilePile) :
    (∀ name ∈ (p.turn openFile).opened, name ∉ p.seen) ∧
      ∀ p' ∈ (p.turn openFile).rest?, p'.seen = (p.turn openFile).opened.toList ++ p.seen := by
  unfold turn
  split
  · simp [Turn.opened, Turn.rest?]
  · simp [Turn.opened, Turn.rest?]
  · simp [Turn.opened, Turn.rest?]
  · split_ifs
    · unfold turnCommand
      repeat' split
      all_goals simp_all [Turn.opened, Turn.rest?]
    · simp [Turn.opened, Turn.rest?]

theorem nodup_opened (openFile : String → Except OpenError Source) (hp : p.seen.Nodup) :
    ((p.turn openFile).opened.toList ++ p.seen).Nodup := by
  have hnew := (turn_opened openFile p).1
  cases h : (p.turn openFile).opened with
  | none => exact hp
  | some name => exact List.nodup_cons.2 ⟨hnew name h, hp⟩

theorem Request.nodup {names : List String} {a : Answer} (h : Request openFile p names a)
    (hp : p.seen.Nodup) :
    (names.reverse ++ p.seen).Nodup ∧
      ∀ t p', a = .token t p' → p'.seen = names.reverse ++ p.seen := by
  induction h with
  | @answer p opened a ht =>
    have hnodup := nodup_opened openFile hp
    have hrest := (turn_opened openFile p).2
    rw [ht] at hnodup hrest
    refine ⟨by cases opened <;> exact hnodup, ?_⟩
    rintro t p' rfl
    rw [hrest p' rfl]
    cases opened <;> rfl
  | @again p p₁ opened names a ht rest ih =>
    have hnodup := nodup_opened openFile hp
    have hrest := (turn_opened openFile p).2
    rw [ht] at hnodup hrest
    have hseen : p₁.seen = opened.toList ++ p.seen := hrest p₁ rfl
    have hreverse : (opened.toList ++ names).reverse ++ p.seen = names.reverse ++ p₁.seen := by
      rw [hseen]
      cases opened <;> simp
    rw [hreverse]
    exact ih (hseen ▸ hnodup)

/-- The names that are opened are new and all different. -/
theorem Drains.nodup {names : List String} {out : Stream} (h : Drains openFile p names out)
    (hp : p.seen.Nodup) : (names.reverse ++ p.seen).Nodup := by
  induction h with
  | finished hr => exact (hr.nodup hp).1
  | failed hr => exact (hr.nodup hp).1
  | token hr rest ih =>
    obtain ⟨hnodup, hseen⟩ := hr.nodup hp
    have hp' := hseen _ _ rfl
    rw [List.reverse_append, List.append_assoc, ← hp']
    exact ih (hp' ▸ hnodup)

end FilePile

/-! ## Requests give what a text stands for -/

section Turns

open FilePile

variable {openFile : String → Except OpenError Source} {seen : List String} {files : List Stream}
  {t name close : Token} {ts : List Token} {failure : Option Failure}

theorem turn_of_faulty (ht : t.text = "$[") {f : Failure} (h : FaultyCommand t failure ts f) :
    turn openFile ⟨seen, ⟨t :: ts, failure⟩ :: files⟩ = .answer none (.failed f) := by
  cases h with
  | noName => simp [turn, turnCommand, ht]
  | badName hn => simp [turn, turnCommand, ht, hn]
  | noClose hn => simp [turn, turnCommand, ht, hn]
  | badClose hn hc => simp [turn, turnCommand, ht, hn, hc]

theorem turn_of_taken (hc : IsCommand t name close) (hs : name.text ∈ seen) :
    turn openFile ⟨seen, ⟨t :: name :: close :: ts, failure⟩ :: files⟩ =
      .again none ⟨seen, ⟨ts, failure⟩ :: files⟩ := by
  simp [turn, turnCommand, hc.opens, hc.named, hc.closes, hs]

theorem turn_of_notOpened (hc : IsCommand t name close) (hs : name.text ∉ seen) {e : OpenError}
    (ho : openFile name.text = .error e) :
    turn openFile ⟨seen, ⟨t :: name :: close :: ts, failure⟩ :: files⟩ =
      .answer (some name.text) (.failed (.notIncluded name.pos name.text e)) := by
  simp [turn, turnCommand, hc.opens, hc.named, hc.closes, hs, ho]

theorem turn_of_opened (hc : IsCommand t name close) (hs : name.text ∉ seen) {s : Source}
    (ho : openFile name.text = .ok s) :
    turn openFile ⟨seen, ⟨t :: name :: close :: ts, failure⟩ :: files⟩ =
      .again (some name.text) ⟨name.text :: seen, s.lex name.text :: ⟨ts, failure⟩ :: files⟩ := by
  simp [turn, turnCommand, hc.opens, hc.named, hc.closes, hs, ho]

/-- Requests give what the file on top stands for, and go on with the files below. -/
theorem InPlace.exists_drains {seen' : List String} {file out rest : Stream}
    (h : InPlace openFile seen file out seen')
    (hrest : out.failure = none → ∃ names, Drains openFile ⟨seen', files⟩ names rest) :
    ∃ names, Drains openFile ⟨seen, file :: files⟩ names (out.followedBy rest) := by
  induction h generalizing files rest with
  | @ended seen failure =>
    cases failure with
    | none =>
      obtain ⟨names, hd⟩ := hrest rfl
      exact ⟨_, .again rfl hd⟩
    | some f => exact ⟨_, .failed (.answer rfl)⟩
  | token ht _ ih =>
    obtain ⟨names, hd⟩ := ih hrest
    rw [Stream.cons_followedBy]
    exact ⟨_, .token (.answer (if_neg ht)) hd⟩
  | faulty ht h => exact ⟨_, .failed (.answer (turn_of_faulty ht h))⟩
  | taken hc hs _ ih =>
    obtain ⟨names, hd⟩ := ih hrest
    exact ⟨_, .again (turn_of_taken hc hs) hd⟩
  | notOpened hc hs ho => exact ⟨_, .failed (.answer (turn_of_notOpened hc hs ho))⟩
  | included hc hs ho _ hi _ ih₁ ih₂ =>
    have hafter := ih₂ fun hout => hrest (by rw [Stream.followedBy, hi]; exact hout)
    obtain ⟨names, hd⟩ := ih₁ fun _ => hafter
    rw [Stream.followedBy_assoc]
    exact ⟨_, .again (turn_of_opened hc hs ho) hd⟩
  | @broken _ seen₁ _ _ _ ts failure _ inner _ hc hs ho _ hi ih =>
    have hnone : inner.failure = none →
        ∃ names, Drains openFile ⟨seen₁, ⟨ts, failure⟩ :: files⟩ names rest := by
      simp [hi]
    obtain ⟨names, hd⟩ := ih hnone
    exact ⟨_, .again (turn_of_opened hc hs ho) hd⟩

end Turns

/-! ## Any files with finitely many contents -/

/-- The words of finitely many contents are a vocabulary. -/
theorem exists_opener {openFile : String → Except OpenError Source}
    (hfin : {s : Source | ∃ name, openFile name = .ok s}.Finite) :
    ∃ o : Opener, o.openFile = openFile := by
  refine ⟨⟨openFile, hfin.toFinset.toList.flatMap Source.words, ?_⟩, rfl⟩
  intro name s h word hword
  exact List.mem_flatMap.2 ⟨s, by simpa using ⟨name, h⟩, hword⟩

theorem exists_inPlace_lex (o : Opener) (file : String) (s : Source) :
    ∃ out seen, InPlace o.openFile [file] (s.lex file) out seen := by
  have hV : ∀ name s', o.openFile name = .ok s' → s'.words ⊆ s.words ++ o.vocabulary :=
    fun name s' h => List.subset_append_of_subset_right _ (o.words_subset h)
  obtain ⟨out, seen, h, -⟩ := exists_inPlace hV [file] (s.lex file).failure (s.lex file).tokens
    fun t ht => List.mem_append_left _ (text_mem_words ht)
  exact ⟨out, seen, h⟩

/-- Where the files have finitely many contents, whatever includes what, requests come to an end. They
give the text with every file in its place, and no name is opened twice. -/
theorem expand_in_place (openFile : String → Except OpenError Source)
    (hfin : {s : Source | ∃ name, openFile name = .ok s}.Finite) (file : String) (s : Source) :
    (∃ o : Opener, o.openFile = openFile) ∧
      ∀ o : Opener, o.openFile = openFile →
        (∃ names, (file :: names).Nodup ∧ ∀ names' out,
          FilePile.Drains openFile ⟨[file], [s.lex file]⟩ names' out ↔
            names' = names ∧ out = expand o file s) ∧
        ∀ out, (∃ seen, InPlace openFile [file] (s.lex file) out seen) ↔
          out = expand o file s := by
  refine ⟨exists_opener hfin, ?_⟩
  rintro o rfl
  obtain ⟨out, seen, hplace⟩ := exists_inPlace_lex o file s
  obtain rfl := hplace.expand_eq
  constructor
  · have hend : (expand o file s).failure = none →
        ∃ names, FilePile.Drains o.openFile ⟨seen, []⟩ names ⟨[], none⟩ :=
      fun _ => ⟨_, .finished (.answer rfl)⟩
    obtain ⟨names, hd⟩ := hplace.exists_drains hend
    rw [Stream.followedBy_nil] at hd
    refine ⟨names, ?_, fun names' out => ⟨fun hd' => hd'.unique hd, ?_⟩⟩
    · have hnodup := hd.nodup (List.nodup_singleton file)
      rwa [← List.reverse_cons, List.nodup_reverse] at hnodup
    · rintro ⟨rfl, rfl⟩
      exact hd
  · intro out
    constructor
    · rintro ⟨seen', hplace'⟩
      exact hplace'.expand_eq.symm
    · rintro rfl
      exact ⟨seen, hplace⟩

namespace Sample

def fileA : Source :=
  ⟨utf8 "y $[ b $] $[ a $] $[ ./a $]", none⟩

def fileB : Source :=
  ⟨utf8 "$[ main $] $( $[ c $] $) z $[ ./a $]", none⟩

/-- Two files that include each other, themselves and the first file. One of them has two names. -/
def openFile (name : String) : Except OpenError Source :=
  if name = "a" ∨ name = "./a" then .ok fileA
  else if name = "b" then .ok fileB
  else .error .unavailable

theorem eq_of_openFile {name : String} {s : Source} (h : openFile name = .ok s) :
    s = fileA ∨ s = fileB := by
  unfold openFile at h
  split_ifs at h
  · exact .inl (Except.ok.inj h).symm
  · exact .inr (Except.ok.inj h).symm

def opener : Opener where
  openFile := openFile
  vocabulary := fileA.words ++ fileB.words
  words_subset h := by
    obtain rfl | rfl := eq_of_openFile h
    · exact List.subset_append_left _ _
    · exact List.subset_append_right _ _

def main : Source :=
  ⟨utf8 "$[ a $] x $[ b $]", none⟩

end Sample

/-- Reading comes to an end though the two files include each other. -/
theorem sample_expand_in_place :
    {s : Source | ∃ name, Sample.openFile name = .ok s}.Finite ∧
    (∃ names, ("main" :: names).Nodup ∧ ∀ names' out,
      FilePile.Drains Sample.openFile ⟨["main"], [Sample.main.lex "main"]⟩ names' out ↔
        names' = names ∧ out = expand Sample.opener "main" Sample.main) ∧
    ∀ out, (∃ seen, InPlace Sample.openFile ["main"] (Sample.main.lex "main") out seen) ↔
      out = expand Sample.opener "main" Sample.main := by
  have hfin : {s : Source | ∃ name, Sample.openFile name = .ok s}.Finite :=
    Set.Finite.subset (Set.toFinite {Sample.fileA, Sample.fileB}) fun s ⟨name, h⟩ =>
      Sample.eq_of_openFile h
  exact ⟨hfin, (expand_in_place Sample.openFile hfin "main" Sample.main).2 Sample.opener rfl⟩

end Metamath
