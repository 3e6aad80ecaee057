import Mathlib.Data.List.Basic
import Metamath.Files.Tree
import Metamath.Proofs.Except

/-!
# Where cleaned paths lead

Cleaning looks at the text of a path alone, following a path at the files. Still, if a path leads
somewhere, its cleaned path leads there as well (`FileTree.locate_clean`): what is taken away is an
element that leads nowhere else, or an element with the `..` that leads back from it.
-/

namespace Metamath

/-! ## Elements -/

theorem Text.splitWhere_eq_splitOnP {α : Type} (p : α → Bool) (l : List α) :
    splitWhere p l = l.splitOnP p := by
  induction l with
  | nil => rfl
  | cons a l ih =>
    obtain ⟨piece, pieces, hl⟩ := List.exists_cons_of_ne_nil (splitWhere_ne_nil p l)
    rw [splitWhere, List.splitOnP_cons_eq_if_modifyHead, ← ih, hl]
    rfl

theorem notMem_of_mem_splitOn {α : Type} [BEq α] [LawfulBEq α] {x : α} {l piece : List α}
    (h : piece ∈ l.splitOn x) : x ∉ piece := by
  induction l generalizing piece with
  | nil =>
    obtain rfl : piece = [] := by simpa using h
    simp
  | cons a l ih =>
    rw [List.splitOn_cons_eq_if_modifyHead] at h
    obtain ⟨first, rest, hl⟩ := List.exists_cons_of_ne_nil (List.splitOn_ne_nil x l)
    rw [hl] at h ih
    split at h
    · rcases List.mem_cons.1 h with rfl | h
      · simp
      · exact ih h
    · rename_i ha
      rcases List.mem_cons.1 h with rfl | h
      · have hne : x ≠ a := fun heq => ha (by simp [heq])
        simp [hne, ih (.head _)]
      · exact ih (.tail _ h)

namespace Path

theorem elements_eq_splitOn (path : String) :
    elements path = (path.toList.splitOn '/').map String.ofList := by
  rw [elements, Text.splitWhere_eq_splitOnP]
  rfl

theorem elements_ne_nil (path : String) : elements path ≠ [] := by
  simp [elements_eq_splitOn]

theorem slash_notMem_of_mem_elements {path e : String} (h : e ∈ elements path) :
    '/' ∉ e.toList := by
  rw [elements_eq_splitOn] at h
  obtain ⟨piece, hpiece, rfl⟩ := List.mem_map.1 h
  simpa using notMem_of_mem_splitOn hpiece

theorem elements_slash_append (path : String) : elements ("/" ++ path) = "" :: elements path := by
  simp only [elements_eq_splitOn, String.toList_append]
  exact congrArg (List.map String.ofList) (List.splitOn_append_cons_self [] path.toList)

theorem elements_append (dir name : String) :
    elements (dir ++ "/" ++ name) = elements dir ++ elements name := by
  have htext : (dir ++ "/" ++ name).toList = dir.toList ++ '/' :: name.toList := by simp
  simp only [elements_eq_splitOn, htext, List.splitOn_append_cons_self, List.map_append]

theorem elements_intercalate {es : List String} (hne : es ≠ [])
    (hes : ∀ e ∈ es, '/' ∉ e.toList) : elements ("/".intercalate es) = es := by
  have hpieces : ∀ piece ∈ es.map String.toList, '/' ∉ piece := by simpa using hes
  have hslash : "/".toList = ['/'] := rfl
  rw [elements_eq_splitOn, String.toList_intercalate, hslash,
    List.splitOn_intercalate '/' hpieces (by simpa using hne)]
  simp

/-! ## The elements of a cleaned path -/

/-- An element that names something, or `..`. -/
structure IsStep (e : String) : Prop where
  ne_empty : e ≠ ""
  ne_dot : e ≠ "."
  no_slash : '/' ∉ e.toList

theorem isStep_pushElement {absolute : Bool} {stack : List String} {e : String}
    (hstack : ∀ x ∈ stack, IsStep x) (he : '/' ∉ e.toList) :
    ∀ x ∈ pushElement absolute stack e, IsStep x := by
  have hup : IsStep ".." := ⟨by decide, by decide, by decide⟩
  unfold pushElement
  by_cases hidle : e = "" ∨ e = "."
  · rwa [if_pos hidle]
  · rw [if_neg hidle]
    by_cases hdots : e = ".."
    · rw [if_pos hdots]
      cases stack with
      | nil => cases absolute <;> simp [hup]
      | cons last rest =>
        simp only
        split_ifs
        · exact List.forall_mem_cons.2 ⟨hup, hstack⟩
        · exact fun x hx => hstack x (.tail _ hx)
    · rw [if_neg hdots]
      obtain ⟨hne, hdot⟩ := not_or.1 hidle
      exact List.forall_mem_cons.2 ⟨⟨hne, hdot, he⟩, hstack⟩

theorem isStep_foldl_pushElement {absolute : Bool} {es stack : List String}
    (hes : ∀ e ∈ es, '/' ∉ e.toList) (hstack : ∀ x ∈ stack, IsStep x) :
    ∀ x ∈ es.foldl (pushElement absolute) stack, IsStep x := by
  induction es generalizing stack with
  | nil => exact hstack
  | cons e es ih =>
    obtain ⟨he, hes⟩ := List.forall_mem_cons.1 hes
    exact ih hes (isStep_pushElement hstack he)

theorem isStep_of_mem_keptElements {path e : String} (h : e ∈ keptElements path) : IsStep e :=
  isStep_foldl_pushElement (fun _ => slash_notMem_of_mem_elements) (List.forall_mem_nil _) e
    (List.mem_reverse.1 h)

theorem elements_clean_of_absolute {path : String} (h : isAbsolute path) :
    elements (clean path) =
      "" :: if keptElements path = [] then [""] else keptElements path := by
  rw [clean, h, if_pos rfl, elements_slash_append]
  split_ifs with hk
  · rw [hk]
    rfl
  · rw [elements_intercalate hk fun e he => (isStep_of_mem_keptElements he).no_slash]

theorem intercalate_keptElements_eq_empty_iff {path : String} :
    "/".intercalate (keptElements path) = "" ↔ keptElements path = [] := by
  constructor
  · intro h
    by_contra hk
    have helements := elements_intercalate hk fun e he => (isStep_of_mem_keptElements he).no_slash
    rw [h] at helements
    have hmem : "" ∈ keptElements path := helements ▸ List.mem_singleton_self ""
    exact (isStep_of_mem_keptElements hmem).ne_empty rfl
  · intro h
    rw [h]
    rfl

theorem elements_clean_of_relative {path : String} (h : isAbsolute path = false) :
    elements (clean path) = if keptElements path = [] then ["."] else keptElements path := by
  simp only [clean, h, Bool.false_eq_true, if_false, intercalate_keptElements_eq_empty_iff]
  split_ifs with hk
  · rfl
  · exact elements_intercalate hk fun e he => (isStep_of_mem_keptElements he).no_slash

theorem exists_of_isAbsolute {path : String} (h : isAbsolute path) :
    ∃ rest, path = "/" ++ rest := by
  obtain ⟨cs, hcs⟩ : ∃ cs, path.toList = '/' :: cs := by
    simpa [isAbsolute, List.head?_eq_some_iff] using h
  refine ⟨String.ofList cs, String.toList_inj.1 ?_⟩
  simp [hcs]

theorem isAbsolute_clean (path : String) : isAbsolute (clean path) = isAbsolute path := by
  cases h : isAbsolute path with
  | true =>
    rw [clean, h, if_pos rfl]
    simp [isAbsolute]
  | false =>
    by_contra hclean
    obtain ⟨rest, hrest⟩ := exists_of_isAbsolute (eq_true_of_ne_false hclean)
    have helements := elements_clean_of_relative h
    rw [hrest, elements_slash_append] at helements
    split_ifs at helements with hk
    · exact absurd (List.cons.inj helements).1 (by decide)
    · have hmem : "" ∈ keptElements path := helements ▸ .head _
      exact (isStep_of_mem_keptElements hmem).ne_empty rfl

end Path

/-! ## Following -/

namespace FileTree

variable {t : FileTree} {s p q : Place} {path : String}

theorem locate_eq_ok_iff :
    t.locate path = .ok p ↔
      pathFault? path = none ∧ (Path.elements path).foldlM t.follow (t.start path) = .ok p := by
  unfold locate
  split <;> simp_all

theorem readFile_eq_ok_iff {content : Bytes} :
    t.readFile path = .ok content ↔
      ∃ p, t.locate path = .ok p ∧ t.entry? p = some (.file content) := by
  unfold readFile lookup
  cases t.locate path with
  | error reason => simp
  | ok p => cases hp : t.entry? p with
    | none => simp [hp]
    | some entry => cases entry <;> simp [hp]

/-- An element leads nowhere, to the directory above, or to what it names. -/
theorem follow_cases {e : String} (h : t.follow p e = .ok q) :
    t.entry? p = some .folder ∧
      ((e = "" ∨ e = ".") ∧ q = p ∨ e = ".." ∧ q = p.dropLast ∨
        ¬ (e = "" ∨ e = ".") ∧ e ≠ ".." ∧ q = p ++ [e]) := by
  unfold follow at h
  split_ifs at h with hfolder hidle hup hsize hsome <;> cases h
  · exact ⟨not_not.1 hfolder, .inl ⟨hidle, rfl⟩⟩
  · exact ⟨not_not.1 hfolder, .inr (.inl ⟨hup, rfl⟩)⟩
  · exact ⟨not_not.1 hfolder, .inr (.inr ⟨hidle, hup, rfl⟩)⟩

/-- One element more, in the path and in the cleaned one. -/
theorem follow_pushElement {absolute : Bool} {stack : List String} {e : String}
    (hroot : absolute → s = []) (hstack : ∀ x ∈ stack, Path.IsStep x)
    (hp : stack.reverse.foldlM t.follow s = .ok p) (he : t.follow p e = .ok q) :
    (Path.pushElement absolute stack e).reverse.foldlM t.follow s = .ok q := by
  have hpush : (e :: stack).reverse.foldlM t.follow s = .ok q := by
    rw [List.reverse_cons, foldlM_append_eq_ok_iff]
    exact ⟨p, hp, by simpa using he⟩
  unfold Path.pushElement
  obtain ⟨-, ⟨hidle, rfl⟩ | ⟨rfl, rfl⟩ | ⟨hidle, hup, rfl⟩⟩ := follow_cases he
  · rwa [if_pos hidle]
  · rw [if_neg (by decide), if_pos rfl]
    cases stack with
    | nil =>
      cases absolute with
      | false => exact hpush
      | true =>
        obtain rfl : s = p := Except.ok.inj hp
        rw [hroot rfl]
        rfl
    | cons last rest =>
      simp only
      split_ifs with hlast
      · rw [hlast] at hpush
        simpa [hlast] using hpush
      · -- the last element led one place further, and `..` leads back
        rw [List.reverse_cons, foldlM_append_eq_ok_iff] at hp
        obtain ⟨above, habove, hstep⟩ := hp
        have hfollow : t.follow above last = .ok p := by simpa using hstep
        have hlast' := hstack last (.head _)
        obtain ⟨-, ⟨hidle, -⟩ | ⟨hdots, -⟩ | ⟨-, -, rfl⟩⟩ := follow_cases hfollow
        · exact absurd hidle (not_or.2 ⟨hlast'.ne_empty, hlast'.ne_dot⟩)
        · exact absurd hdots hlast
        · simpa using habove
  · rwa [if_neg hidle, if_neg hup]

theorem follow_foldl_pushElement {absolute : Bool} {es stack : List String}
    (hroot : absolute → s = []) (hes : ∀ e ∈ es, '/' ∉ e.toList)
    (hstack : ∀ x ∈ stack, Path.IsStep x) (hp : stack.reverse.foldlM t.follow s = .ok p)
    (hq : es.foldlM t.follow p = .ok q) :
    (es.foldl (Path.pushElement absolute) stack).reverse.foldlM t.follow s = .ok q := by
  induction es generalizing stack p with
  | nil =>
    obtain rfl : p = q := Except.ok.inj hq
    exact hp
  | cons e es ih =>
    obtain ⟨p', he, hrest⟩ := foldlM_cons_eq_ok_iff.1 hq
    obtain ⟨hslash, hes⟩ := List.forall_mem_cons.1 hes
    exact ih hes (Path.isStep_pushElement hstack hslash) (follow_pushElement hroot hstack hp he) hrest

/-- The elements that cleaning keeps lead where all of them lead. -/
theorem foldlM_keptElements (h : (Path.elements path).foldlM t.follow (t.start path) = .ok p) :
    (Path.keptElements path).foldlM t.follow (t.start path) = .ok p :=
  follow_foldl_pushElement (fun habs => if_pos habs) (fun _ => Path.slash_notMem_of_mem_elements)
    (List.forall_mem_nil _) rfl h

/-- A path starts in a directory if it leads anywhere. -/
theorem entry?_start (h : (Path.elements path).foldlM t.follow (t.start path) = .ok p) :
    t.entry? (t.start path) = some .folder := by
  obtain ⟨e, es, hes⟩ := List.exists_cons_of_ne_nil (Path.elements_ne_nil path)
  rw [hes] at h
  obtain ⟨q, hq, -⟩ := foldlM_cons_eq_ok_iff.1 h
  exact (follow_cases hq).1

theorem follow_of_idle {e : String} (hs : t.entry? s = some .folder) (he : e = "" ∨ e = ".") :
    t.follow s e = .ok s := by
  rw [follow, if_neg (not_not.2 hs), if_pos he]

/-- A cleaned path leads where the path leads, unless it is too long. -/
theorem locate_clean (h : (Path.elements path).foldlM t.follow (t.start path) = .ok p)
    (hfault : pathFault? (Path.clean path) = none) : t.locate (Path.clean path) = .ok p := by
  have hkept := foldlM_keptElements h
  have hstart : t.start (Path.clean path) = t.start path := by
    rw [start, start, Path.isAbsolute_clean]
  have hidle : ∀ e, e = "" ∨ e = "." → ∀ es, (e :: es).foldlM t.follow (t.start path) =
      es.foldlM t.follow (t.start path) := by
    intro e he es
    rw [List.foldlM_cons, follow_of_idle (entry?_start h) he]
    rfl
  refine locate_eq_ok_iff.2 ⟨hfault, ?_⟩
  rw [hstart]
  cases habs : Path.isAbsolute path with
  | true =>
    rw [Path.elements_clean_of_absolute habs, hidle "" (.inl rfl)]
    split_ifs with hk
    · rw [hidle "" (.inl rfl), ← hk]
      exact hkept
    · exact hkept
  | false =>
    rw [Path.elements_clean_of_relative habs]
    split_ifs with hk
    · rw [hidle "." (.inr rfl), ← hk]
      exact hkept
    · exact hkept

/-- From the working directory, a name leads where it leads when it is joined to a path of that
directory. -/
theorem locate_join {dir name : String} (hdir : t.locate dir = .ok t.base)
    (hname : Path.isAbsolute name = false) (h : t.locate name = .ok p)
    (hfault : pathFault? (Path.join dir name) = none) : t.locate (Path.join dir name) = .ok p := by
  have hne : ∀ {path p}, t.locate path = .ok p → path ≠ "" := by
    rintro path p h rfl
    cases h
  have hjoin : Path.join dir name = Path.clean (dir ++ "/" ++ name) := by
    simp [Path.join, hne hdir, hne h]
  obtain ⟨-, hdir'⟩ := locate_eq_ok_iff.1 hdir
  obtain ⟨-, h'⟩ := locate_eq_ok_iff.1 h
  have hstart : t.start (dir ++ "/" ++ name) = t.start dir := by
    obtain ⟨c, cs, hc⟩ := List.exists_cons_of_ne_nil (mt String.toList_eq_nil_iff.1 (hne hdir))
    simp [start, Path.isAbsolute, hc]
  rw [hjoin] at hfault ⊢
  refine locate_clean ?_ hfault
  rw [Path.elements_append, hstart, foldlM_append_eq_ok_iff]
  refine ⟨t.base, hdir', ?_⟩
  rwa [start, hname] at h'

end FileTree

end Metamath
