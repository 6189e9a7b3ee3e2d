import DocMarkup.Proofs.SourceLink.Answer

namespace DocMarkup

namespace SourceLinker

open FilePath

/-- The file is reached from the root by the names of the relative path. -/
structure StaysBelow (root file path : FilePath) : Prop where
  relative : isAbsolute path = false
  named : ∀ part ∈ parts path, ∃ name, part = .name name
  parts_eq : parts file = parts root ++ parts path
  inside : ∀ base, namesFrom base root <+: namesFrom base file

theorem point_not_mem_slashed (module : Text) : '.' ∉ slashed module := by
  intro member
  obtain ⟨c, -, point⟩ := List.mem_map.mp member
  by_cases same : c = '.'
  · subst same
    cases point
  · rw [if_neg (by simpa using same)] at point
    exact same point

theorem isPlain_of_mem_relativeModulePaths {module path : Text}
    (candidate : path ∈ relativeModulePaths module) :
    ∀ segment ∈ segments path, IsPlain segment := by
  have plain : ∀ ending ∈ ([".py", "/__init__.py"] : List Text),
      ∀ segment ∈ segments ending, IsPlain segment := by
    unfold IsPlain
    decide
  rcases List.mem_pair.mp candidate with rfl | rfl
  · exact isPlain_segments (point_not_mem_slashed module) (plain ".py" (by simp))
  · exact isPlain_segments (point_not_mem_slashed module) (plain "/__init__.py" (by simp))

theorem staysBelow_join {root path : FilePath} (relative : isAbsolute path = false)
    (plain : ∀ segment ∈ segments path, IsPlain segment) :
    StaysBelow root (join root path) path where
  relative := relative
  named := parts_of_isPlain relative plain ▸ exists_name_of_isPlain plain
  parts_eq := parts_join relative plain
  inside := namesFrom_prefix_join relative plain

theorem IsSourcePath.isAbsolute_iff {tree : FileTree} {root : FilePath} {module path : Text}
    (isSource : IsSourcePath tree root module path) :
    isAbsolute path = true ↔
      module.head? = some '.' ∨ module.head? = some '/' ∨
        module = [] ∧ path = "/__init__.py" := by
  cases module with
  | nil =>
    rcases isSource.2 with rfl | ⟨-, rfl⟩
    · decide
    · decide
  | cons c module =>
    rw [isAbsolute_iff_leavesRoot (List.cons_ne_nil c module) (mem_relativeModulePaths isSource)]
    simp [LeavesRoot]

/-- The file of a module lies below the root, on the way of names that its path gives, unless that
path is absolute. It is if the module begins with a point or a slash, or has no name and is found as
a package; then the root plays no part. -/
theorem moduleFile?_staysBelow_iff {tree : FileTree} {root : FilePath} {module : Text}
    {file path : FilePath} (found : moduleFile? tree root module = some (file, path)) :
    (StaysBelow root file path ↔ isAbsolute path = false) ∧
      (isAbsolute path = true ↔
        module.head? = some '.' ∨ module.head? = some '/' ∨
          module = [] ∧ path = "/__init__.py") ∧
      (isAbsolute path = true → file = path) := by
  obtain ⟨same, isSource⟩ := moduleFile?_eq_some_iff.mp found
  obtain rfl : file = join root path := same
  refine ⟨⟨StaysBelow.relative, fun relative => ?_⟩, isSource.isAbsolute_iff,
    fun absolute => ?_⟩
  · exact staysBelow_join relative
      (isPlain_of_mem_relativeModulePaths (mem_relativeModulePaths isSource))
  · rw [join, absolute, Bool.true_or, if_pos rfl]

theorem moduleFile?_sampleModule :
    moduleFile? sampleLibrary "/lib" "shapes.round" =
        some (("/lib/shapes/round.py", "shapes/round.py") : Text × Text) ∧
      StaysBelow "/lib" "/lib/shapes/round.py" "shapes/round.py" := by
  have found : moduleFile? sampleLibrary "/lib" "shapes.round" =
      some (("/lib/shapes/round.py", "shapes/round.py") : Text × Text) := by decide +kernel
  exact ⟨found, (moduleFile?_staysBelow_iff found).1.mpr rfl⟩

/-- A module that begins with a slash is found outside the root. -/
theorem not_forall_staysBelow :
    ¬ ∀ (tree : FileTree) (root : FilePath) (module : Text) (file path : FilePath),
      moduleFile? tree root module = some (file, path) → StaysBelow root file path := by
  intro below
  have found : moduleFile? sampleLibrary "/src" "/lib/shapes/round" =
      some (("/lib/shapes/round.py", "/lib/shapes/round.py") : Text × Text) := by decide +kernel
  exact absurd (below _ _ _ _ _ found).relative (by decide)

end SourceLinker

end DocMarkup
