import Metamath.Files.Tree
import Metamath.Token.Inclusion

/-!
# Openers

The two ways to open included files: by their path from a directory of a file tree, and by name
among a list of named files.
-/

namespace Metamath

/-! ## Files of a directory -/

namespace FileTree

/-- The words of all files. -/
def vocabulary (t : FileTree) : List String :=
  t.files.flatMap fun f => Source.words { bytes := f.2 }

theorem words_nil (f : Option Failure) : Source.words { bytes := [], failure := f } = [] := by
  simp [Source.words, runs, runsFrom]

theorem exists_mem_of_entry? {t : FileTree} {p : Place} {content : Bytes}
    (h : t.entry? p = some (.file content)) : ∃ f ∈ t.files, f.2 = content := by
  unfold entry? at h
  split at h
  · rename_i f hf
    cases h
    exact ⟨f, List.mem_of_find?_eq_some hf, rfl⟩
  · split at h <;> cases h

theorem exists_mem_of_lookup {t : FileTree} {path : String} {content : Bytes}
    (h : t.lookup path = .ok (.file content)) : ∃ f ∈ t.files, f.2 = content := by
  unfold lookup at h
  split at h
  · cases h
  · split at h
    · rename_i entry he
      cases h
      exact exists_mem_of_entry? he
    · cases h

theorem words_subset_of_openFile {t : FileTree} {path : String} {s : Source}
    (h : t.openFile path = .ok s) : s.words ⊆ t.vocabulary := by
  unfold openFile at h
  split at h
  · cases h
  · rename_i content hl
    cases h
    obtain ⟨f, hf, rfl⟩ := exists_mem_of_lookup hl
    exact fun w hw => List.mem_flatMap.2 ⟨f, hf, hw⟩
  · cases h
    simp [words_nil]

/-- Opens names as paths from a directory. -/
def opener (t : FileTree) (dir : String) : Opener where
  openFile name := (t.openFile (Path.resolve dir name)).mapError .file
  vocabulary := t.vocabulary
  words_subset {name s} h := by
    cases hp : t.openFile (Path.resolve dir name) with
    | error e => rw [hp] at h; cases h
    | ok s' =>
      rw [hp] at h
      cases h
      exact words_subset_of_openFile hp

end FileTree

/-! ## Named files -/

/-- Whether a text can name a file: no element is empty, `.` or `..`, unless `.` is all. -/
def isFileName (name : String) : Bool :=
  name == "." || (Path.elements name).all fun e => e != "" && e != "." && e != ".."

/-- Opens names literally, as those of named files. A name on the way to a file opens as a
directory, which cannot be read. -/
def Opener.ofFiles (files : List (String × Bytes)) : Opener where
  openFile name :=
    if !isFileName name then .error (.file ⟨.openFile, name, .doesNotExist⟩)
    else match files.find? (·.1 == name) with
      | some f => .ok { bytes := f.2 }
      | none =>
        if name = "." ∨ files.any fun f => (name ++ "/").toList.isPrefixOf f.1.toList then
          .ok { bytes := [], failure := some (.file ⟨.readFile, name, .invalidArgument⟩) }
        else .error (.file ⟨.openFile, name, .doesNotExist⟩)
  vocabulary := files.flatMap fun f => Source.words { bytes := f.2 }
  words_subset {name s} h := by
    split at h
    · cases h
    · split at h
      · rename_i f hf
        cases h
        intro w hw
        exact List.mem_flatMap.2 ⟨f, List.mem_of_find?_eq_some hf, hw⟩
      · split at h
        · cases h
          simp [FileTree.words_nil]
        · cases h

end Metamath
