import Mathlib.Data.List.Basic
import DocMarkup.Proofs.Files.Writing

namespace DocMarkup

namespace FilePath

/-- The segment is not one of those that stand for a directory seen from another. -/
def IsPlain (segment : Text) : Prop := segment ≠ "." ∧ segment ≠ ".."

theorem segments_cons (c : Char) (path : FilePath) :
    segments (c :: path) =
      if c = '/' then [] :: segments path else (segments path).modifyHead (c :: ·) := by
  rw [segments, List.splitOn, List.splitOnP_cons_eq_if_modifyHead, ← List.splitOn, ← segments]
  simp

theorem isPlain_segments {front path : FilePath} (noPoint : '.' ∉ front)
    (plain : ∀ segment ∈ segments path, IsPlain segment) :
    ∀ segment ∈ segments (front ++ path), IsPlain segment := by
  induction front with
  | nil => exact plain
  | cons c front ih =>
    rw [List.mem_cons, not_or] at noPoint
    have behind := ih noPoint.2
    intro segment member
    rw [List.cons_append, segments_cons] at member
    split at member
    · rcases List.mem_cons.mp member with rfl | member
      · exact ⟨by decide, by decide⟩
      · exact behind segment member
    · obtain ⟨first, rest, same⟩ :=
        List.exists_cons_of_ne_nil (List.splitOn_ne_nil '/' (front ++ path))
      rw [segments, same, List.modifyHead_cons] at member
      rcases List.mem_cons.mp member with rfl | member
      · exact ⟨fun point => noPoint.1 (List.cons.inj point).1.symm,
          fun points => noPoint.1 (List.cons.inj points).1.symm⟩
      · rw [segments, same] at behind
        exact behind segment (List.mem_cons_of_mem _ member)

theorem exists_name_of_isPlain {segments : List Text}
    (plain : ∀ segment ∈ segments, IsPlain segment) :
    ∀ part ∈ segments.filterMap partOf?, ∃ name, part = .name name := by
  intro part member
  obtain ⟨segment, inside, made⟩ := List.mem_filterMap.mp member
  unfold partOf? at made
  split at made
  · cases made
  · rw [if_neg (plain segment inside).2] at made
    cases made
    exact ⟨segment, rfl⟩

theorem parts_of_isPlain {path : FilePath} (relative : isAbsolute path = false)
    (plain : ∀ segment ∈ segments path, IsPlain segment) :
    parts path = (segments path).filterMap partOf? := by
  have notHere : (segments path).head? ≠ some "." :=
    fun here => (plain _ (List.mem_of_head? here)).1 rfl
  simp only [parts, relative, notHere, Bool.false_eq_true, ↓reduceIte]

theorem segments_append_slash (front path : FilePath) :
    segments (front ++ '/' :: path) = segments front ++ segments path :=
  List.splitOn_append_cons_self _ _

theorem head?_segments_append (front : FilePath) (more : List Text) :
    (segments front ++ more).head? = (segments front).head? :=
  List.head?_append_of_ne_nil _ (List.splitOn_ne_nil _ _)

section Joined

variable {directory path : FilePath} (relative : isAbsolute path = false)
  (plain : ∀ segment ∈ segments path, IsPlain segment)

include relative plain

theorem parts_eq_append {whole : FilePath} (absolute : isAbsolute whole = isAbsolute directory)
    (first : (segments whole).head? = (segments directory).head?)
    (rest : (segments whole).filterMap partOf? =
      (segments directory).filterMap partOf? ++ (segments path).filterMap partOf?) :
    parts whole = parts directory ++ parts path := by
  rw [parts_of_isPlain relative plain, parts, absolute, first, rest, parts]
  split
  · rfl
  · split <;> rfl

theorem parts_join : parts (join directory path) = parts directory ++ parts path := by
  rw [join, relative, Bool.false_or]
  split
  · rename_i empty
    rw [List.isEmpty_iff.mp empty]
    rfl
  rename_i nonempty
  obtain ⟨c, tail, rfl⟩ := List.exists_cons_of_ne_nil fun empty =>
    nonempty (List.isEmpty_iff.mpr empty)
  split
  -- A directory that is closed by a slash ends in an empty segment, which is no part.
  · rename_i closed
    obtain ⟨front, same⟩ := List.getLast?_eq_some_iff.mp (beq_iff_eq.mp closed)
    have slash : segments (c :: tail) = segments front ++ [[]] := by
      rw [same]
      exact segments_append_slash front []
    have whole : segments (c :: tail ++ path) = segments front ++ segments path := by
      rw [same, List.append_assoc, List.singleton_append, segments_append_slash]
    refine parts_eq_append relative plain rfl ?_ ?_
    · rw [whole, slash, head?_segments_append, head?_segments_append]
    · rw [whole, slash, List.filterMap_append, List.filterMap_append]
      simp [partOf?]
  · have whole : segments (c :: tail ++ "/" ++ path) = segments (c :: tail) ++ segments path := by
      rw [List.append_assoc]
      exact segments_append_slash (c :: tail) path
    refine parts_eq_append relative plain rfl ?_ ?_
    · rw [whole, head?_segments_append]
    · rw [whole, List.filterMap_append]

end Joined

theorem prefix_foldl_walk {parts : List PathPart}
    (named : ∀ part ∈ parts, ∃ name, part = .name name) (names : List Text) :
    names <+: parts.foldl walk names := by
  induction parts generalizing names with
  | nil => exact List.prefix_refl _
  | cons part parts ih =>
    obtain ⟨name, rfl⟩ := named part List.mem_cons_self
    have rest := ih (fun part member => named part (List.mem_cons_of_mem _ member))
    exact (List.prefix_append names [name]).trans (rest (names ++ [name]))

theorem namesFrom_prefix_join {directory path : FilePath} (relative : isAbsolute path = false)
    (plain : ∀ segment ∈ segments path, IsPlain segment) (base : List Text) :
    namesFrom base directory <+: namesFrom base (join directory path) := by
  rw [namesFrom_eq_foldl, namesFrom_eq_foldl, parts_join relative plain, List.foldl_append]
  exact prefix_foldl_walk (parts_of_isPlain relative plain ▸ exists_name_of_isPlain plain) _

/-- A path taken below a directory, also if it begins with a slash. -/
def under (directory path : FilePath) : FilePath := join directory (path.dropWhile (· == '/'))

theorem isAbsolute_dropWhile (path : FilePath) :
    isAbsolute (path.dropWhile (· == '/')) = false := by
  have first := List.head?_dropWhile_not (· == '/') path
  rw [isAbsolute]
  cases left : (path.dropWhile (· == '/')).head? with
  | none => rfl
  | some c =>
    rw [left] at first
    simpa using first

theorem join_eq_under {path : FilePath} (relative : isAbsolute path = false)
    (directory : FilePath) : join directory path = under directory path := by
  cases path with
  | nil => rfl
  | cons c path =>
    have first : (c == '/') = false := by simpa [isAbsolute] using relative
    rw [under, List.dropWhile_cons, first]
    rfl

theorem isPlain_dropWhile {path : FilePath} (plain : ∀ segment ∈ segments path, IsPlain segment) :
    ∀ segment ∈ segments (path.dropWhile (· == '/')), IsPlain segment := by
  induction path with
  | nil => exact plain
  | cons c path ih =>
    rw [List.dropWhile_cons]
    split
    · rename_i slash
      rw [segments_cons, if_pos (by simpa using slash)] at plain
      exact ih fun segment member => plain segment (List.mem_cons_of_mem _ member)
    · exact plain

theorem namesFrom_prefix_under {directory path : FilePath}
    (plain : ∀ segment ∈ segments path, IsPlain segment) (base : List Text) :
    namesFrom base directory <+: namesFrom base (under directory path) :=
  namesFrom_prefix_join (isAbsolute_dropWhile path) (isPlain_dropWhile plain) base

end FilePath

namespace FileTree

open FilePath

def SameAt (tree tree' : FileTree) (path : FilePath) : Prop :=
  tree'.isFile path = tree.isFile path ∧ tree'.read path = tree.read path

instance (tree tree' : FileTree) (path : FilePath) : Decidable (tree.SameAt tree' path) :=
  inferInstanceAs (Decidable (_ ∧ _))

/-- The trees have the same files below a directory. -/
def SameBelow (tree tree' : FileTree) (directory : FilePath) : Prop :=
  ∀ path, (∀ segment ∈ segments path, IsPlain segment) → tree.SameAt tree' (under directory path)

structure SameShape (tree tree' : FileTree) : Prop where
  workingDirectory : tree'.workingDirectory = tree.workingDirectory
  present : ∀ location, (tree'.node? location).isSome = (tree.node? location).isSome
  directory : ∀ location, tree'.isDirectoryAt location = tree.isDirectoryAt location

variable {tree tree' : FileTree}

theorem SameShape.follow (same : SameShape tree tree') (location : Location)
    (segments : List Text) : tree'.follow location segments = tree.follow location segments := by
  induction segments generalizing location with
  | nil => rfl
  | cons segment rest ih =>
    simp only [FileTree.follow, same.directory, ← Option.not_isSome, same.present, ih]

theorem SameShape.locate (same : SameShape tree tree') (path : FilePath) :
    tree'.locate path = tree.locate path := by
  simp only [FileTree.locate, origin, same.workingDirectory, same.follow]

theorem sameShape_set {location : Location} {held : ByteArray}
    (file : tree.node? location = some (.file held)) (content : ByteArray) :
    SameShape tree (tree.set location (.file content)) := by
  have below : location ≠ [] := by
    rintro rfl
    cases file
  refine ⟨rfl, fun other => ?_, fun other => ?_⟩
  · rw [node?_set below]
    split
    · rename_i here
      rw [here, file]
      rfl
    · rfl
  · rw [isDirectoryAt, node?_set below, isDirectoryAt]
    split
    · rename_i here
      rw [here, file]
      rfl
    · rfl

/-- A file that is written again does not show below a directory in which it does not lie. -/
theorem sameBelow_set {location : Location} {held : ByteArray}
    (file : tree.node? location = some (.file held)) {directory : FilePath}
    (outside : ¬ namesFrom tree.workingDirectory directory <+: location) (content : ByteArray) :
    tree.SameBelow (tree.set location (.file content)) directory := by
  intro path plain
  have same := sameShape_set file content
  have below : location ≠ [] := by
    rintro rfl
    cases file
  simp only [SameAt, isFile, nodeAt?, read, same.locate]
  cases leads : tree.locate (under directory path) with
  | error cause => exact ⟨rfl, rfl⟩
  | ok found =>
    have apart : found ≠ location := by
      rintro rfl
      rw [locate_eq_namesFrom leads] at outside
      exact outside (namesFrom_prefix_under plain _)
    simp only [Bind.bind, Except.bind, node?_set below, if_neg apart, and_self]

end FileTree

end DocMarkup
