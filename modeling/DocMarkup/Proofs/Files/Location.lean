import DocMarkup.Files.Tree

namespace DocMarkup

namespace FilePath

def walk (names : List Text) : PathPart → List Text
  | .root => []
  | .here => names
  | .up => names.dropLast
  | .name text => names ++ [text]

theorem namesFrom_eq_foldl (base : List Text) (path : FilePath) :
    namesFrom base path = (parts path).foldl walk base := rfl

end FilePath

namespace FileTree

open FilePath

theorem follow_eq_walk {tree : FileTree} {segments : List Text} {location result : Location}
    (leads : tree.follow location segments = .ok result) :
    result = (segments.filterMap partOf?).foldl walk location := by
  induction segments generalizing location with
  | nil => exact (Except.ok.inj leads).symm
  | cons segment rest ih =>
    unfold follow at leads
    split at leads
    · cases leads
    split at leads <;> rename_i still
    · have skipped : partOf? segment = none := by rw [partOf?, if_pos still]
      rw [List.filterMap_cons_none skipped]
      exact ih leads
    split at leads <;> rename_i up
    · have part : partOf? segment = some .up := by rw [partOf?, if_neg still, if_pos up]
      rw [List.filterMap_cons_some part]
      exact ih leads
    have part : partOf? segment = some (.name segment) := by rw [partOf?, if_neg still, if_neg up]
    split at leads
    · cases leads
    split at leads
    · cases leads
    rw [List.filterMap_cons_some part]
    exact ih leads

theorem locate_eq_namesFrom {tree : FileTree} {path : FilePath} {location : Location}
    (leads : tree.locate path = .ok location) :
    location = namesFrom tree.workingDirectory path := by
  simp only [locate, Bind.bind, Except.bind] at leads
  split at leads
  · cases leads
  rw [follow_eq_walk leads, namesFrom_eq_foldl, parts, origin]
  split
  · rfl
  · split <;> rfl

theorem locate_of_isFile {tree : FileTree} {path : FilePath} (file : tree.isFile path = true) :
    tree.locate path = .ok (namesFrom tree.workingDirectory path) := by
  cases leads : tree.locate path with
  | ok location => rw [locate_eq_namesFrom leads]
  | error cause =>
    rw [isFile, nodeAt?, leads] at file
    cases file

theorem read_eq_of_parts {tree : FileTree} {path path' : FilePath} (same : parts path = parts path')
    (file : tree.isFile path = true) (file' : tree.isFile path' = true) :
    tree.read path = tree.read path' := by
  have names : namesFrom tree.workingDirectory path = namesFrom tree.workingDirectory path' := by
    rw [namesFrom_eq_foldl, same, namesFrom_eq_foldl]
  rw [read, read, locate_of_isFile file, locate_of_isFile file', names]

end FileTree

end DocMarkup
