import Metamath.Token.Run

/-!
# File inclusion

`$[ name $]` stands for the tokens of the named file. `readItems` finds these commands among the
tokens of one file; `expand` replaces them, opening every name at most once, the name of the first
file counted as opened. Since a name that is opened must be a word of a file that was opened before,
the words of all files bound the expansion: they are the `vocabulary` of an `Opener`.
-/

namespace Metamath

/-! ## Openers -/

/-- A way to open files by name. -/
structure Opener where
  /-- What opening a name gives. -/
  openFile : String → Except OpenError Source
  /-- Words among which are those of every file that can be opened. -/
  vocabulary : List String
  words_subset : ∀ {name s}, openFile name = .ok s → s.words ⊆ vocabulary

namespace Opener

/-- The opener that can open no file. -/
protected def none : Opener where
  openFile _ := .error .unavailable
  vocabulary := []
  words_subset h := nomatch h

end Opener

/-! ## Commands -/

/-- A part of a file: a token of its own, or the inclusion of another file. -/
inductive Item where
  | token (t : Token)
  | inclusion (name : Token)
deriving DecidableEq, Repr

/-- The failure for a faulty inclusion command. -/
def inclusionFailure (t : Token) (e : InclusionError) : Failure :=
  .diagnostic { cause := .inclusion e, pos := t.pos }

/-- The items in the tokens of one file, and the failure that ends them, if any. -/
def readItems (failure : Option Failure) : List Token → List Item × Option Failure
  | [] => ([], failure)
  | t :: ts =>
    if t.text = "$[" then
      match ts with
      | [] => ([], failure.getD (inclusionFailure t .unfinished))
      | name :: ts =>
        if '$' ∈ name.text.toList then ([], inclusionFailure name (.dollarInName name.text))
        else match ts with
          | [] => ([], failure.getD (inclusionFailure t .unfinished))
          | close :: ts =>
            if close.text = "$]" then
              let (items, failure) := readItems failure ts
              (.inclusion name :: items, failure)
            else ([], inclusionFailure close .unclosed)
    else
      let (items, failure) := readItems failure ts
      (.token t :: items, failure)

/-- A file is included by a name that is one of the tokens. -/
theorem mem_of_inclusion_mem_readItems {failure : Option Failure} {ts : List Token} {name : Token}
    (h : .inclusion name ∈ (readItems failure ts).1) : name ∈ ts := by
  fun_induction readItems failure ts <;> simp_all
  grind

/-! ## Expansion -/

/-- A file that is being read: what is left of it. Names of inclusions are in the vocabulary `V`. -/
structure Reading (V : List String) where
  items : List Item
  failure : Option Failure
  names_mem : ∀ name, .inclusion name ∈ items → name.text ∈ V

namespace Reading

variable {V : List String}

/-- The whole of a file, before anything of it is read. -/
def ofSource (file : String) (s : Source) (h : s.words ⊆ V) : Reading V where
  items := (readItems (s.lex file).failure (s.lex file).tokens).1
  failure := (readItems (s.lex file).failure (s.lex file).tokens).2
  names_mem _ hn := h (text_mem_words (mem_of_inclusion_mem_readItems hn))

/-- How much is left to read in a pile of files. -/
def pileSize : List (Reading V) → Nat
  | [] => 0
  | r :: rs => r.items.length + 1 + pileSize rs

end Reading

/-- The words of the vocabulary that are not in a list of names. -/
def unseen (V seen : List String) : List String :=
  V.filter fun v => !seen.contains v

theorem length_unseen_cons_lt {V seen : List String} {name : String} (hV : name ∈ V)
    (hs : name ∉ seen) : (unseen V (name :: seen)).length < (unseen V seen).length := by
  have heq : unseen V (name :: seen) = (unseen V seen).filter (· ≠ name) := by
    rw [unseen, unseen, List.filter_filter]
    congr
    funext v
    simp
  rw [heq, List.length_filter_lt_length_iff_exists]
  exact ⟨name, by simp [unseen, hV, hs], by simp⟩

/-- The tokens of a pile of files, the innermost first, when the names in `seen` are opened. -/
def expandFrom (o : Opener) {V : List String} (hV : o.vocabulary ⊆ V) (seen : List String) :
    List (Reading V) → Stream
  | [] => ⟨[], none⟩
  | ⟨[], none, _⟩ :: pile => expandFrom o hV seen pile
  | ⟨[], some f, _⟩ :: _ => .fail f
  | ⟨.token t :: items, failure, h⟩ :: pile =>
    (expandFrom o hV seen (⟨items, failure, fun n hn => h n (.tail _ hn)⟩ :: pile)).cons t
  | ⟨.inclusion name :: items, failure, h⟩ :: pile =>
    if _hs : name.text ∈ seen then
      expandFrom o hV seen (⟨items, failure, fun n hn => h n (.tail _ hn)⟩ :: pile)
    else
      match ho : o.openFile name.text with
      | .error e => .fail (.notIncluded name.pos name.text e)
      | .ok s =>
        expandFrom o hV (name.text :: seen)
          (.ofSource name.text s (fun _ hw => hV (o.words_subset ho hw)) ::
            ⟨items, failure, fun n hn => h n (.tail _ hn)⟩ :: pile)
termination_by pile => ((unseen V seen).length, Reading.pileSize pile)
decreasing_by
  · exact Prod.Lex.right _ (by simp [Reading.pileSize])
  · exact Prod.Lex.right _ (by simp [Reading.pileSize])
  · exact Prod.Lex.right _ (by simp [Reading.pileSize])
  · exact Prod.Lex.left _ _ (length_unseen_cons_lt (h name (.head _)) _hs)

/-- The tokens of a file with the included files in place. -/
def expand (o : Opener) (file : String) (s : Source) : Stream :=
  expandFrom o (V := s.words ++ o.vocabulary) (List.subset_append_right _ _) [file]
    [.ofSource file s (List.subset_append_left _ _)]

end Metamath
