import Metamath.Proofs.Engine.Grading
import Metamath.Proofs.Files.Path

/-!
# Ignored paths

Whether a file is left out is decided by comparing texts: a cleaned path with a slash after it must
be how the cleaned path of the file starts. This amounts to comparing the paths element by element
(`Path.isWithin_iff_prefix`), so a directory does not stand for another one whose name only starts
in the same way. It fails for the two directories without elements, `.` and `/`: ignoring them
leaves out nothing below them (`isIgnored_iff_names`, `current_directory_and_root_spared`).
-/

namespace Metamath

namespace Path

/-- The elements of a path that name something, or are `..`. The paths `.` and `/` have none. -/
def names (path : String) : List String :=
  (elements path).filter fun e => e ≠ "" ∧ e ≠ "."

/-! ## Texts and elements -/

theorem intercalate_elements (path : String) : "/".intercalate (elements path) = path := by
  have hslash : "/".toList = ['/'] := rfl
  apply String.toList_inj.1
  rw [elements_eq_splitOn, String.toList_intercalate, List.map_map, hslash]
  simp [Function.comp_def, List.intercalate_splitOn]

/-- A text followed by a slash is how another one starts, exactly if the elements of the other one
go on after those of the text. -/
theorem slash_prefix_iff {dir path : String} :
    (dir ++ "/").toList <+: path.toList ↔
      ∃ rest, rest ≠ [] ∧ elements path = elements dir ++ rest := by
  constructor
  · rintro ⟨rest, hrest⟩
    have hpath : path = dir ++ "/" ++ String.ofList rest := by
      apply String.toList_inj.1
      simp [← hrest]
    exact ⟨elements (String.ofList rest), elements_ne_nil _, by rw [hpath, elements_append]⟩
  · rintro ⟨rest, hne, hrest⟩
    refine ⟨("/".intercalate rest).toList, ?_⟩
    rw [← intercalate_elements path, hrest,
      String.intercalate_append_of_ne_nil (elements_ne_nil dir) hne, intercalate_elements]
    simp

theorem elements_injective : Function.Injective elements := by
  intro path path' h
  rw [← intercalate_elements path, h, intercalate_elements]

/-- One path is within another exactly if its elements start with those of the other. -/
theorem isWithin_iff_elements {path dir : String} :
    IsWithin path dir ↔ elements (clean dir) <+: elements (clean path) := by
  unfold IsWithin
  rw [slash_prefix_iff]
  constructor
  · rintro (heq | ⟨rest, -, hrest⟩)
    · rw [heq]
    · exact ⟨rest, hrest.symm⟩
  · rintro ⟨rest, hrest⟩
    by_cases hne : rest = []
    · rw [hne, List.append_nil] at hrest
      exact .inl (elements_injective hrest).symm
    · exact .inr ⟨rest, hne, hrest.symm⟩

/-! ## Cleaned paths -/

theorem filter_keptElements (path : String) :
    (keptElements path).filter (fun e => e ≠ "" ∧ e ≠ ".") = keptElements path := by
  apply List.filter_eq_self.2
  intro e he
  have hstep := isStep_of_mem_keptElements he
  simp [hstep.ne_empty, hstep.ne_dot]

theorem names_clean (path : String) : names (clean path) = keptElements path := by
  unfold names
  cases habs : isAbsolute path with
  | true =>
    rw [elements_clean_of_absolute habs]
    split_ifs with hk
    · rw [hk]
      rfl
    · rw [List.filter_cons_of_neg (by decide), filter_keptElements]
  | false =>
    rw [elements_clean_of_relative habs]
    split_ifs with hk
    · rw [hk]
      rfl
    · exact filter_keptElements path

/-- With `x` in place of no elements, nothing but the empty list goes on after the empty list. -/
theorem ite_prefix_ite_iff {x : String} {es es' : List String} (hx : x ∉ es) (hx' : x ∉ es') :
    (if es = [] then [x] else es) <+: (if es' = [] then [x] else es') ↔
      es <+: es' ∧ (es = [] → es' = []) := by
  cases es with
  | nil =>
    cases es' with
    | nil => simp
    | cons e' es' =>
      have hne : x ≠ e' := fun heq => hx' (heq ▸ .head _)
      simp [hne]
  | cons e es =>
    cases es' with
    | nil =>
      have hne : e ≠ x := fun heq => hx (heq ▸ .head _)
      simp [hne]
    | cons e' es' => simp

/-- A path is within a directory exactly if both are absolute or both relative and its elements
start with those of the directory; a directory without elements has nothing but itself within it. -/
theorem isWithin_iff_prefix {path dir : String} :
    IsWithin path dir ↔ isAbsolute dir = isAbsolute path ∧ keptElements dir <+: keptElements path ∧
      (keptElements dir = [] → keptElements path = []) := by
  have hempty : ∀ p, "" ∉ keptElements p := fun p h => (isStep_of_mem_keptElements h).ne_empty rfl
  have hdot : ∀ p, "." ∉ keptElements p := fun p h => (isStep_of_mem_keptElements h).ne_dot rfl
  -- the elements of a relative path do not start like those of an absolute one
  have hrelative : ∀ p, "" ∉ if keptElements p = [] then ["."] else keptElements p := by
    intro p
    split_ifs
    · decide
    · exact hempty p
  rw [isWithin_iff_elements]
  cases hd : isAbsolute dir with
  | true =>
    rw [elements_clean_of_absolute hd]
    cases hp : isAbsolute path with
    | true =>
      rw [elements_clean_of_absolute hp, List.cons_prefix_cons,
        ite_prefix_ite_iff (hempty dir) (hempty path)]
      simp
    | false =>
      rw [elements_clean_of_relative hp]
      refine iff_of_false (fun h => hrelative path (h.subset (.head _))) (by simp)
  | false =>
    rw [elements_clean_of_relative hd]
    cases hp : isAbsolute path with
    | true =>
      rw [elements_clean_of_absolute hp]
      refine iff_of_false (fun h => ?_) (by simp)
      have hne : (if keptElements dir = [] then ["."] else keptElements dir) ≠ [] := by
        split_ifs with hk
        · exact List.cons_ne_nil _ _
        · exact hk
      obtain ⟨e, es, hes⟩ := List.exists_cons_of_ne_nil hne
      rw [hes, List.cons_prefix_cons] at h
      exact hrelative dir (hes ▸ h.1 ▸ .head _)
    | false =>
      rw [elements_clean_of_relative hp, ite_prefix_ite_iff (hdot dir) (hdot path)]
      simp

end Path

/-! ## Settings -/

/-- A file is left out exactly if an ignored path, absolute or relative like its own, has elements
and those of the file start with them, or if both have none. -/
theorem isIgnored_iff_names {root : String} {rules : List (String × Severity)} {e : Engine}
    (h : Engine.ofRules root rules = .ok e) (as : List Adjustment) (file : String) :
    (e.adjustAll as).isIgnored file ↔
      ∃ p, .ignorePath p ∈ as ∧ Path.isAbsolute p = Path.isAbsolute file ∧
        Path.names (Path.clean p) <+: Path.names (Path.clean file) ∧
        (Path.names (Path.clean p) = [] → Path.names (Path.clean file) = []) := by
  simp only [Engine.isIgnored_adjustAll_iff h, Path.names_clean, Path.isWithin_iff_prefix]

/-- A directory written in a roundabout way, and beside it a file whose name starts with its name.
-/
theorem library_ignored :
    Engine.ofRules "." [] = .ok { root := "." } ∧
      (Engine.adjustAll { root := "." } [.ignorePath "x/.././lib//"]).isIgnored "lib/./logic/a.mm" ∧
      ¬ (Engine.adjustAll { root := "." } [.ignorePath "x/.././lib//"]).isIgnored "library.mm" := by
  have h : Engine.ofRules "." [] = .ok { root := "." } := rfl
  refine ⟨h, (isIgnored_iff_names h _ _).2 ⟨_, .head _, rfl, ?_, ?_⟩, ?_⟩
  · decide
  · decide
  · rw [isIgnored_iff_names h]
    rintro ⟨p, hp, -, hprefix, -⟩
    obtain rfl := Adjustment.ignorePath.inj (List.mem_singleton.1 hp)
    revert hprefix
    decide

/-- Ignoring the current directory or the root does not leave out the files below them. -/
theorem current_directory_and_root_spared :
    (Path.isAbsolute "." = Path.isAbsolute "a.mm" ∧
      Path.names (Path.clean ".") <+: Path.names (Path.clean "a.mm") ∧
      ¬ (Engine.adjustAll { root := "." } [.ignorePath "."]).isIgnored "a.mm") ∧
    Path.isAbsolute "/" = Path.isAbsolute "/a.mm" ∧
      Path.names (Path.clean "/") <+: Path.names (Path.clean "/a.mm") ∧
      ¬ (Engine.adjustAll { root := "." } [.ignorePath "/"]).isIgnored "/a.mm" := by
  decide

end Metamath
