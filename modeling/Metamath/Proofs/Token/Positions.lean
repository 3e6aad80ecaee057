import Metamath.Proofs.Token.Words

/-!
# Positions say where tokens stand

The tokens of a file are some of its words, in order (`tokens_scan_sublist`), so that each of them is
found at its position (`Token.StandsIn`). Expansion takes tokens from files and adds none
(`InPlace.origin`), and takes up a file at most once. So the position of a token leads to the token in
what is read under the name that it gives, and in the tokens of one file offsets increase
(`expand_positions`).
-/

namespace Metamath

/-! ## Words in a text -/

theorem Divides.stands {before text : Bytes} {ws : List PlacedWord} (h : Divides before text ws)
    (hstart : (∀ b ∈ before.getLast?, b ∈ whiteSpace) ∨ ∀ b ∈ text.head?, b ∈ whiteSpace)
    {w : PlacedWord} (hw : w ∈ ws) :
    ∃ after, before ++ text = w.before ++ (w.bytes ++ after) ∧ w.bytes.Disjoint whiteSpace ∧
      (∀ b ∈ w.before.getLast?, b ∈ whiteSpace) ∧ (∀ b ∈ after.head?, b ∈ whiteSpace) := by
  induction h with
  | ended => cases hw
  | @word before gap word rest ws hgap hne hword hrest _ ih =>
    rcases List.mem_cons.1 hw with rfl | hw
    · refine ⟨rest, by simp, hword, fun b hb => ?_, hrest⟩
      rcases List.eq_nil_or_concat gap with rfl | ⟨gap, b', rfl⟩
      · -- without a gap the text starts with the word, so that white space stands before it
        obtain ⟨b', word, rfl⟩ := List.exists_cons_of_ne_nil hne
        rcases hstart with hstart | hstart
        · exact hstart b (by simpa using hb)
        · exact (hword (.head _) (hstart b' rfl)).elim
      · have hb' : b' = b := by simpa [← List.append_assoc] using hb
        exact hb' ▸ hgap (by simp)
    · obtain ⟨after, htext, hends⟩ := ih (.inr hrest) hw
      exact ⟨after, by rw [← htext]; simp, hends⟩

/-- Every word stands further on than the words before it. -/
theorem Divides.increasing {before text : Bytes} {ws : List PlacedWord} (h : Divides before text ws) :
    (∀ w ∈ ws, before.length ≤ w.before.length) ∧
      ws.Pairwise fun w w' => w.before.length < w'.before.length := by
  induction h with
  | ended => exact ⟨List.forall_mem_nil _, .nil⟩
  | @word before gap word rest ws hgap hne hword hrest _ ih =>
    obtain ⟨hle, hpair⟩ := ih
    have hpos := List.length_pos_iff.2 hne
    simp only [List.length_append] at hle
    refine ⟨List.forall_mem_cons.2 ⟨?_, fun w hw => ?_⟩, .cons (fun w hw => ?_) hpair⟩
    · simp
    · have := hle w hw
      omega
    · have := hle w hw
      simp only [List.length_append]
      omega

/-! ## Tokens of a file -/

theorem utf8EncodeChar_ofNat {b : UInt8} (h : b ≤ 0x7e) :
    String.utf8EncodeChar (Char.ofNat b.toNat) = [b] := by
  have hb : b.toNat ≤ 0x7e := h
  have hvalid : b.toNat.isValidChar := .inl (by omega)
  have hval : (Char.ofNat b.toNat).val.toNat = b.toNat := by
    rw [Char.ofNat, dif_pos hvalid]
    rfl
  simp only [String.utf8EncodeChar, hval]
  rw [if_pos (by omega), UInt8.ofNat_toNat]

theorem utf8_latin1 {bs : Bytes} (h : Printable bs) : utf8 (latin1 bs) = bs := by
  rw [utf8, toList_latin1, List.flatMap_map]
  induction bs with
  | nil => rfl
  | cons b bs ih =>
    obtain ⟨hb, hbs⟩ := List.forall_mem_cons.1 h
    rw [List.flatMap_cons, utf8EncodeChar_ofNat hb.2, ih hbs]
    rfl

namespace PlacedWord

/-- The token that a word is. -/
def token (file : String) (w : PlacedWord) : Token :=
  ⟨latin1 w.bytes, .after file w.before⟩

def isPrintable (w : PlacedWord) : Bool :=
  w.bytes.all isTokenByte

end PlacedWord

/-- The tokens of some runs are words that can be printed, in order. -/
theorem tokens_scan_sublist (file : String) (failure : Option Failure) (comment : Option Cursor)
    {rs : List Run} {ws : List PlacedWord} (hrs : List.Forall₂ Run.IsAt rs ws) :
    (scan file failure comment rs).tokens.Sublist
      ((ws.filter PlacedWord.isPrintable).map (PlacedWord.token file)) := by
  -- a word that is no token is left out
  have hskip (w : PlacedWord) (ws : List PlacedWord) :
      ((ws.filter PlacedWord.isPrintable).map (PlacedWord.token file)).Sublist
        (((w :: ws).filter PlacedWord.isPrintable).map (PlacedWord.token file)) :=
    ((List.sublist_cons_self w ws).filter _).map _
  fun_induction scan file failure comment rs generalizing ws with
  | case5 r rs _ _ _ ih | case8 r rs _ _ _ _ ih | case11 r rs _ _ _ _ _ _ ih =>
    cases hrs with
    | cons _ hrs => exact (ih hrs).trans (hskip _ _)
  | case7 r rs hb _ _ _ ih =>
    cases hrs with
    | @cons _ w _ ws hat hrs =>
      obtain ⟨hstart, hbytes⟩ := hat
      rw [hbytes] at hb
      have hw : w.isPrintable := printable_iff.1 (printable_of_firstInvalid hb)
      have htoken : (⟨r.text, r.start.position file⟩ : Token) = w.token file := by
        rw [hstart, Cursor.position_after, Run.text, hbytes]
        rfl
      rw [Stream.tokens_cons, htoken, List.filter_cons_of_pos hw, List.map_cons]
      exact (ih hrs).cons_cons _
  | _ => exact List.nil_sublist _

/-- A byte that no word may have is told of at its place in a word. -/
theorem exists_of_invalid_scan {file : String} {failure : Option Failure} {comment : Option Cursor}
    {rs : List Run} {ws : List PlacedWord} (hrs : List.Forall₂ Run.IsAt rs ws) {d : Diagnostic}
    {b : UInt8} (hd : d.cause = .lex (.invalidCharacter b))
    (h : (scan file failure comment rs).failure = some (.diagnostic d)) :
    failure = some (.diagnostic d) ∨
      ∃ w ∈ ws, ∃ good bad, w.bytes = good ++ b :: bad ∧ ¬ (0x21 ≤ b ∧ b ≤ 0x7e) ∧
        d.pos = .after file (w.before ++ good) := by
  fun_induction scan file failure comment rs generalizing ws with
  | case1 | case4 => exact .inl h
  | case2 opening =>
    cases failure with
    | some f => exact .inl h
    | none =>
      cases h
      cases hd
  | case3 comment r rs c b' hb =>
    cases h
    cases hd
    cases hrs with
    | @cons _ w _ ws hat hrs =>
      obtain ⟨hstart, hbytes⟩ := hat
      obtain ⟨good, bad, hword, hinvalid, rfl⟩ := exists_of_firstInvalid hb
      refine .inr ⟨w, .head _, good, bad, hbytes ▸ hword, hinvalid, ?_⟩
      rw [hstart, ← Cursor.after_append]
      exact Cursor.position_after _ _
  | case5 r rs _ _ _ ih | case7 r rs _ _ _ _ ih | case8 r rs _ _ _ _ ih
  | case11 r rs _ _ _ _ _ _ ih =>
    cases hrs with
    | cons _ hrs =>
      rcases ih hrs h with h | ⟨w, hw, h⟩
      · exact .inl h
      · exact .inr ⟨w, .tail _ hw, h⟩
  | _ =>
    cases h
    cases hd

/-- A token is found in a text at its position, between white space or the ends of the text. -/
def Token.StandsIn (text : Bytes) (t : Token) : Prop :=
  ∃ before after, text = before ++ (utf8 t.text ++ after) ∧
    (∀ b ∈ before.getLast?, b ∈ whiteSpace) ∧ (∀ b ∈ after.head?, b ∈ whiteSpace) ∧
    t.pos = .after t.pos.filename before

/-- Of two tokens of one file the first stands before the second. -/
def Token.Precedes (t t' : Token) : Prop :=
  t.pos.filename = t'.pos.filename → t.pos.offset < t'.pos.offset

/-- Tokens of one file, in order. -/
structure OfFile (file : String) (ts : List Token) : Prop where
  filename : ∀ t ∈ ts, t.pos.filename = file
  pairwise : ts.Pairwise Token.Precedes

theorem OfFile.sublist {file : String} {ts ts' : List Token} (h : OfFile file ts)
    (hsub : ts'.Sublist ts) : OfFile file ts' where
  filename t ht := h.filename t (hsub.subset ht)
  pairwise := h.pairwise.sublist hsub

/-- A byte that no word may have stands at a position of a text. -/
def InvalidAt (text : Bytes) (b : UInt8) (pos : Position) : Prop :=
  ∃ before after, text = before ++ b :: after ∧ b ∉ whiteSpace ∧ ¬ (0x21 ≤ b ∧ b ≤ 0x7e) ∧
    pos = .after pos.filename before

namespace Source

theorem exists_isAt_runs (s : Source) :
    ∃ ws, Divides [] s.bytes ws ∧ List.Forall₂ Run.IsAt (runs s.bytes) ws := by
  obtain ⟨ws, hws⟩ := exists_divides [] s.bytes
  exact ⟨ws, hws, hws.runs⟩

theorem stands_of_mem_lex {file : String} {s : Source} {t : Token}
    (h : t ∈ (s.lex file).tokens) : t.pos.filename = file ∧ t.StandsIn s.bytes := by
  obtain ⟨ws, hws, hruns⟩ := s.exists_isAt_runs
  rw [lex_eq_scan] at h
  obtain ⟨w, hw, rfl⟩ := List.mem_map.1 ((tokens_scan_sublist file s.failure none hruns).subset h)
  obtain ⟨hw, hp⟩ := List.mem_filter.1 hw
  obtain ⟨after, htext, -, hleft, hright⟩ := hws.stands (.inl (by simp)) hw
  refine ⟨rfl, w.before, after, ?_, hleft, hright, rfl⟩
  rw [PlacedWord.token, utf8_latin1 (printable_iff.2 hp)]
  exact htext

theorem ofFile_lex (file : String) (s : Source) : OfFile file (s.lex file).tokens := by
  obtain ⟨ws, hws, hruns⟩ := s.exists_isAt_runs
  have hsub := (tokens_scan_sublist file s.failure none hruns).trans (List.filter_sublist.map _)
  rw [← lex_eq_scan] at hsub
  refine ⟨fun t ht => (stands_of_mem_lex ht).1,
    (List.Pairwise.map _ ?_ hws.increasing.2).sublist hsub⟩
  exact fun w w' hlt _ => Int.ofNat_lt.2 hlt

theorem invalidAt_of_failure_lex {file : String} {s : Source} {d : Diagnostic} {b : UInt8}
    (hd : d.cause = .lex (.invalidCharacter b)) (h : (s.lex file).failure = some (.diagnostic d)) :
    s.failure = some (.diagnostic d) ∨ d.pos.filename = file ∧ InvalidAt s.bytes b d.pos := by
  obtain ⟨ws, hws, hruns⟩ := s.exists_isAt_runs
  rw [lex_eq_scan] at h
  rcases exists_of_invalid_scan hruns hd h with h | ⟨w, hw, good, bad, hbytes, hb, hpos⟩
  · exact .inl h
  · obtain ⟨after, htext, hword, -⟩ := hws.stands (.inl (by simp)) hw
    refine .inr ⟨by rw [hpos]; rfl, w.before ++ good, bad ++ after, ?_, ?_, hb, by rw [hpos]; rfl⟩
    · rw [← List.nil_append s.bytes, htext, hbytes]
      simp
    · exact fun hwhite => hword (by simp [hbytes]) hwhite

end Source

/-! ## Files in place -/

section InPlace

variable {openFile : String → Except OpenError Source} {seen seen' : List String}
  {st out : Stream}

/-- A token of a file whose name is taken after and not before. -/
def Token.Included (openFile : String → Except OpenError Source) (seen seen' : List String)
    (t : Token) : Prop :=
  t.pos.filename ∉ seen ∧ t.pos.filename ∈ seen' ∧
    ∃ s, openFile t.pos.filename = .ok s ∧ t ∈ (s.lex t.pos.filename).tokens

theorem Token.Included.mono {t : Token} (h : t.Included openFile seen seen')
    {before after : List String} (hbefore : before ⊆ seen) (hafter : seen' ⊆ after) :
    t.Included openFile before after :=
  ⟨fun hmem => h.1 (hbefore hmem), hafter h.2.1, h.2.2⟩

/-- What a file that is taken up has or includes is included. -/
theorem Token.included_of_opened {name : String} {s : Source} (hs : name ∉ seen)
    (ho : openFile name = .ok s) (hname : name ∈ seen') {t : Token}
    (h : t ∈ (s.lex name).tokens ∨ t.Included openFile (name :: seen) seen') :
    t.Included openFile seen seen' := by
  rcases h with ht | h
  · obtain rfl := (Source.stands_of_mem_lex ht).1
    exact ⟨hs, hname, s, ho, ht⟩
  · exact h.mono (List.subset_cons_self _ _) (List.Subset.refl _)

/-- A token of what a file stands for is one of the file or one of a file that it includes. -/
theorem InPlace.origin (h : InPlace openFile seen st out seen') {t : Token} (ht : t ∈ out.tokens) :
    t ∈ st.tokens ∨ t.Included openFile seen seen' := by
  induction h with
  | ended => exact .inl ht
  | token _ _ ih =>
    rcases List.mem_cons.1 ht with rfl | ht
    · exact .inl (.head _)
    · exact (ih ht).imp_left (.tail _)
  | faulty | notOpened => cases ht
  | taken _ _ _ ih => exact (ih ht).imp_left fun h => .tail _ (.tail _ (.tail _ h))
  | included hc hs ho file hi rest ih₁ ih₂ =>
    rw [Stream.followedBy, hi, List.mem_append] at ht
    rcases ht with ht | ht
    · have h := Token.included_of_opened hs ho (file.subset (.head _)) (ih₁ ht)
      exact .inr (h.mono (List.Subset.refl _) rest.subset)
    · refine (ih₂ ht).imp (fun h => .tail _ (.tail _ (.tail _ h))) fun h => h.mono ?_ ?_
      · exact List.subset_of_cons_subset file.subset
      · exact List.Subset.refl _
  | broken hc hs ho file hi ih =>
    exact .inr (Token.included_of_opened hs ho (file.subset (.head _)) (ih ht))

/-- Files that stand in another have other names, and each of them stands there once. -/
theorem InPlace.pairwise_precedes (h : InPlace openFile seen st out seen') {own : String}
    (hown : own ∈ seen) (hst : OfFile own st.tokens) : out.tokens.Pairwise Token.Precedes := by
  induction h generalizing own with
  | ended => exact hst.pairwise
  | token ht rest ih =>
    refine .cons (fun t' ht' => ?_) (ih hown (hst.sublist (List.sublist_cons_self _ _)))
    rcases rest.origin ht' with ht' | ht'
    · exact List.rel_of_pairwise_cons hst.pairwise ht'
    · have hname := hst.filename _ (.head _)
      exact fun heq => (ht'.1 (heq ▸ hname ▸ hown)).elim
  | faulty | notOpened => exact .nil
  | taken _ _ _ ih => exact ih hown (hst.sublist (List.sublist_append_right [_, _, _] _))
  | @included seen seen₁ _ t name close ts _ s _ _ hc hs ho file hi rest ih₁ ih₂ =>
    have hts : OfFile own ts := hst.sublist (List.sublist_append_right [_, _, _] _)
    have hsub : seen ⊆ seen₁ := List.subset_of_cons_subset file.subset
    rw [Stream.followedBy, hi]
    refine List.pairwise_append.2 ⟨ih₁ (.head _) (s.ofFile_lex _), ih₂ (hsub hown) hts, ?_⟩
    intro t ht t' ht' heq
    -- the file of the first token is taken in between
    have hfirst : t.Included openFile seen seen₁ :=
      Token.included_of_opened hs ho (file.subset (.head _)) (file.origin ht)
    rcases rest.origin ht' with h | h
    · exact (hfirst.1 (heq ▸ hts.filename _ h ▸ hown)).elim
    · exact (h.1 (heq ▸ hfirst.2.1)).elim
  | broken hc hs ho file hi ih => exact ih (.head _) (Source.ofFile_lex _ _)

theorem FaultyCommand.failure_eq {t : Token} {ts : List Token} {failure : Option Failure}
    {d : Diagnostic} (h : FaultyCommand t failure ts (.diagnostic d)) {e : LexError}
    (hd : d.cause = .lex e) : failure = some (.diagnostic d) := by
  generalize hf : Failure.diagnostic d = f at h
  cases h with
  | noName | noClose =>
    cases failure with
    | some f => rfl
    | none =>
      cases hf
      cases hd
  | badName | badClose =>
    cases hf
    cases hd

/-- A fault of the words of a text comes from the lexer: of the file, or of one that it includes. -/
theorem InPlace.failure_origin (h : InPlace openFile seen st out seen') {d : Diagnostic}
    {e : LexError} (hd : d.cause = .lex e) (hout : out.failure = some (.diagnostic d)) :
    st.failure = some (.diagnostic d) ∨ ∃ name s, name ∉ seen ∧ openFile name = .ok s ∧
      (s.lex name).failure = some (.diagnostic d) := by
  induction h with
  | ended => exact .inl hout
  | token _ _ ih | taken _ _ _ ih => exact ih hout
  | faulty ht h =>
    cases hout
    exact .inl (h.failure_eq hd)
  | notOpened => cases hout
  | @included seen seen₁ _ _ name _ _ _ s _ _ hc hs ho file hi rest ih₁ ih₂ =>
    rw [Stream.followedBy, hi] at hout
    rcases ih₂ hout with h | ⟨name', s', hnew, h⟩
    · exact .inl h
    · exact .inr ⟨name', s', fun hmem => hnew (file.subset (.tail _ hmem)), h⟩
  | @broken _ _ _ name _ _ _ s _ _ hc hs ho file hi ih =>
    rcases ih hout with h | ⟨name', s', hnew, h⟩
    · exact .inr ⟨name.text, s, hs, ho, h⟩
    · exact .inr ⟨name', s', fun hmem => hnew (.tail _ hmem), h⟩

end InPlace

/-- The content that is read under a name: a file is opened by any name but that of the text. -/
def ReadAs (o : Opener) (file : String) (s : Source) (name : String) (content : Source) : Prop :=
  name = file ∧ content = s ∨ name ≠ file ∧ o.openFile name = .ok content

/-- Positions are faithful. A token of an expanded text is found at its position in the content that
is read under the name there. Among tokens of one file offsets increase. And a byte that no word may
have is found at the position of the diagnostic for it, unless it was a file that failed so. -/
theorem expand_positions (o : Opener) (file : String) (s : Source) :
    (∀ t ∈ (expand o file s).tokens, ∃ content,
      ReadAs o file s t.pos.filename content ∧ t.StandsIn content.bytes) ∧
    ((expand o file s).tokens.Pairwise fun t t' =>
      t.pos.filename = t'.pos.filename → t.pos.offset < t'.pos.offset) ∧
    ∀ d b, (expand o file s).failure = some (.diagnostic d) →
      d.cause = .lex (.invalidCharacter b) →
      (∃ name content, ReadAs o file s name content ∧ content.failure = some (.diagnostic d)) ∨
      ∃ content, ReadAs o file s d.pos.filename content ∧ InvalidAt content.bytes b d.pos := by
  obtain ⟨out, seen, h⟩ := exists_inPlace_lex o file s
  rw [h.expand_eq]
  refine ⟨fun t ht => ?_, h.pairwise_precedes (List.mem_singleton_self file) (s.ofFile_lex file),
    fun d b hfail hd => ?_⟩
  · rcases h.origin ht with ht | ⟨hnew, -, content, ho, ht⟩
    · obtain ⟨hname, hstands⟩ := Source.stands_of_mem_lex ht
      exact ⟨s, .inl ⟨hname, rfl⟩, hstands⟩
    · have hne : t.pos.filename ≠ file := by simpa using hnew
      exact ⟨content, .inr ⟨hne, ho⟩, (Source.stands_of_mem_lex ht).2⟩
  · have hread : ∃ name content, ReadAs o file s name content ∧
        (content.lex name).failure = some (.diagnostic d) := by
      rcases h.failure_origin hd hfail with h | ⟨name, content, hnew, ho, h⟩
      · exact ⟨file, s, .inl ⟨rfl, rfl⟩, h⟩
      · have hne : name ≠ file := by simpa using hnew
        exact ⟨name, content, .inr ⟨hne, ho⟩, h⟩
    obtain ⟨name, content, hread, h⟩ := hread
    rcases Source.invalidAt_of_failure_lex hd h with hsource | ⟨rfl, hinvalid⟩
    · exact .inl ⟨name, content, hread, hsource⟩
    · exact .inr ⟨content, hread, hinvalid⟩

namespace Sample

/-- A text that includes a file and then has a byte that no word may have. -/
def marred : Source where
  bytes := utf8 "a\n$[ f $] b" ++ [1]

/-- A file with a comment and words on two lines. -/
def twoLines : Source where
  bytes := utf8 "$( x $)\n c\n\td"

def twoLinesOpener : Opener where
  openFile name := if name = "f" then .ok twoLines else .error .unavailable
  vocabulary := twoLines.words
  words_subset {name s} h := by
    split at h
    · cases h
      exact List.Subset.refl _
    · cases h

def marredFault : Diagnostic where
  cause := .lex (.invalidCharacter 1)
  pos := ⟨"main", 11, 2, 10⟩

theorem expand_marred :
    expand twoLinesOpener "main" marred =
      ⟨[⟨"a", ⟨"main", 0, 1, 1⟩⟩, ⟨"c", ⟨"f", 9, 2, 2⟩⟩, ⟨"d", ⟨"f", 12, 3, 2⟩⟩],
        some (.diagnostic marredFault)⟩ := by
  have hmarred : marred.lex "main" =
      ⟨[⟨"a", ⟨"main", 0, 1, 1⟩⟩, ⟨"$[", ⟨"main", 2, 2, 1⟩⟩, ⟨"f", ⟨"main", 5, 2, 4⟩⟩,
        ⟨"$]", ⟨"main", 7, 2, 6⟩⟩], some (.diagnostic marredFault)⟩ := by decide +kernel
  have htwoLines : twoLines.lex "f" =
      ⟨[⟨"c", ⟨"f", 9, 2, 2⟩⟩, ⟨"d", ⟨"f", 12, 3, 2⟩⟩], none⟩ := by decide +kernel
  have hinner : InPlace twoLinesOpener.openFile ["f", "main"] (twoLines.lex "f")
      (twoLines.lex "f") ["f", "main"] := by
    rw [htwoLines]
    exact inPlace_of_no_command _ _ _ (by decide)
  have hplace : InPlace twoLinesOpener.openFile ["main"] (marred.lex "main")
      (((twoLines.lex "f").followedBy ⟨[], some (.diagnostic marredFault)⟩).cons
        ⟨"a", ⟨"main", 0, 1, 1⟩⟩) ["f", "main"] := by
    rw [hmarred]
    refine .token (by decide) (.included ⟨rfl, by decide, rfl⟩ (by decide) rfl hinner ?_ .ended)
    rw [htwoLines]
  rw [hplace.expand_eq, htwoLines]
  rfl

/-- The last token stands in the included file, and the byte that is reported in the text itself. -/
theorem positions_marred :
    (⟨"d", ⟨"f", 12, 3, 2⟩⟩ ∈ (expand twoLinesOpener "main" marred).tokens ∧
      (expand twoLinesOpener "main" marred).failure = some (.diagnostic marredFault)) ∧
    (∃ content, ReadAs twoLinesOpener "main" marred "f" content ∧
      Token.StandsIn content.bytes ⟨"d", ⟨"f", 12, 3, 2⟩⟩) ∧
    ((∃ name content, ReadAs twoLinesOpener "main" marred name content ∧
        content.failure = some (.diagnostic marredFault)) ∨
      ∃ content, ReadAs twoLinesOpener "main" marred "main" content ∧
        InvalidAt content.bytes 1 ⟨"main", 11, 2, 10⟩) := by
  obtain ⟨hstands, -, hinvalid⟩ := expand_positions twoLinesOpener "main" marred
  rw [expand_marred] at hstands hinvalid ⊢
  exact ⟨⟨by simp, rfl⟩, hstands ⟨"d", ⟨"f", 12, 3, 2⟩⟩ (by simp), hinvalid marredFault 1 rfl rfl⟩

end Sample

end Metamath
