import DocMarkup.Files.Path

namespace DocMarkup

namespace FilePath

theorem not_mem_of_mem_segments {path : FilePath} {segment : Text}
    (mem : segment ∈ segments path) : '/' ∉ segment := by
  induction path generalizing segment with
  | nil =>
    rw [List.mem_singleton.mp mem]
    exact List.not_mem_nil
  | cons c path ih =>
    rw [segments, List.splitOn, List.splitOnP_cons_eq_if_modifyHead, ← List.splitOn] at mem
    split at mem
    · rcases List.mem_cons.mp mem with rfl | mem
      · exact List.not_mem_nil
      · exact ih mem
    · rename_i other
      obtain ⟨first, rest, same⟩ := List.exists_cons_of_ne_nil (List.splitOn_ne_nil '/' path)
      rw [segments, same] at ih
      rw [same, List.modifyHead_cons] at mem
      rcases List.mem_cons.mp mem with rfl | mem
      · rw [List.mem_cons, not_or]
        exact ⟨fun same => other (by simp [← same]), ih List.mem_cons_self⟩
      · exact ih (List.mem_cons_of_mem _ mem)

theorem segments_join (directory : FilePath) {name : Text} (unbroken : '/' ∉ name) :
    ∃ front, segments (join directory name) = front ++ [name] := by
  have single : segments name = [name] := List.splitOn_eq_singleton unbroken
  have relative : isAbsolute name = false := by
    rw [isAbsolute, beq_eq_false_iff_ne]
    exact fun head => unbroken (List.mem_of_head? head)
  rw [join, relative, Bool.false_or]
  split
  · exact ⟨[], single⟩
  split
  · rename_i closed
    obtain ⟨front, rfl⟩ := List.getLast?_eq_some_iff.mp (beq_iff_eq.mp closed)
    refine ⟨segments front, ?_⟩
    rw [List.append_assoc, List.singleton_append, segments, List.splitOn_append_cons_self,
      ← segments, ← segments, single]
  · refine ⟨segments directory, ?_⟩
    rw [List.append_assoc]
    exact (List.splitOn_append_cons_self _ _).trans (congrArg _ single)

theorem partOf?_eq_name {segment name : Text} (part : partOf? segment = some (.name name)) :
    segment = name ∧ name ≠ [] := by
  unfold partOf? at part
  split at part
  · cases part
  rename_i still
  split at part <;> cases part
  exact ⟨rfl, fun empty => still (.inl empty)⟩

theorem getLast?_parts {path : FilePath} {front : List Text} {name : Text}
    (ends : segments path = front ++ [name]) (part : partOf? name = some (.name name)) :
    (parts path).getLast? = some (.name name) := by
  have rest : (segments path).filterMap partOf? = front.filterMap partOf? ++ [.name name] := by
    rw [ends, List.filterMap_append, List.filterMap_cons_some part, List.filterMap_nil]
  have ended (first : List PathPart) :
      (first ++ (segments path).filterMap partOf?).getLast? = some (.name name) := by
    rw [rest, ← List.append_assoc, List.getLast?_concat]
  rw [parts]
  split
  · exact ended [.root]
  · split
    · exact ended [.here]
    · exact ended []

theorem getLast?_namesFrom (base : List Text) {path : FilePath} {name : Text}
    (ends : (parts path).getLast? = some (.name name)) :
    (namesFrom base path).getLast? = some name := by
  obtain ⟨front, same⟩ := List.getLast?_eq_some_iff.mp ends
  rw [namesFrom, same, List.foldl_append]
  exact List.getLast?_concat

theorem fileName?_eq_some_iff {path : FilePath} {name : Text} :
    fileName? path = some name ↔ (parts path).getLast? = some (.name name) := by
  unfold fileName?
  split
  · rename_i last
    simp [last]
  · rename_i other
    exact ⟨nofun, fun last => (other name last).elim⟩

theorem not_mem_of_fileName? {path : FilePath} {name : Text} (named : fileName? path = some name) :
    '/' ∉ name ∧ name ≠ [] := by
  have mem := List.mem_of_getLast? (fileName?_eq_some_iff.mp named)
  have mem : PathPart.name name ∈ (segments path).filterMap partOf? := by
    simp only [parts] at mem
    split at mem
    · simpa using mem
    · split at mem
      · simpa using mem
      · exact mem
  obtain ⟨segment, memSegment, part⟩ := List.mem_filterMap.mp mem
  obtain ⟨rfl, nonempty⟩ := partOf?_eq_name part
  exact ⟨not_mem_of_mem_segments memSegment, nonempty⟩

theorem splitName_append {stem extension : Text} (nonempty : stem ≠ []) (plain : '.' ∉ extension) :
    splitName (stem ++ "." ++ extension) = (stem, some extension) := by
  have back : (stem ++ "." ++ extension).reverse = extension.reverse ++ '.' :: stem.reverse := by
    simp [show ("." : Text) = ['.'] from rfl]
  have passes : ∀ c ∈ extension.reverse, (c != '.') = true := by
    intro c mem
    rw [bne_iff_ne]
    rintro rfl
    exact plain (List.mem_reverse.mp mem)
  rw [splitName, back, List.takeWhile_append_of_pos passes, List.dropWhile_append_of_pos passes]
  simp [nonempty]

theorem stem_subset (name : Text) : (splitName name).1 ⊆ name := by
  rw [splitName]
  split
  · exact List.Subset.refl name
  · intro c mem
    have mem := List.mem_of_mem_drop (List.mem_reverse.mp mem)
    exact List.mem_reverse.mp ((List.dropWhile_subset _) mem)

theorem stem_ne_nil {name : Text} (nonempty : name ≠ []) : (splitName name).1 ≠ [] := by
  rw [splitName]
  split
  · exact nonempty
  · rename_i full
    simpa using full

theorem stem?_eq_some {path : FilePath} {stem : Text} (stemmed : stem? path = some stem) :
    ∃ name, (parts path).getLast? = some (.name name) ∧ (splitName name).1 = stem ∧
      stem ≠ [] ∧ '/' ∉ stem := by
  obtain ⟨name, named, rfl⟩ := Option.map_eq_some_iff.mp stemmed
  obtain ⟨unbroken, nonempty⟩ := not_mem_of_fileName? named
  exact ⟨name, fileName?_eq_some_iff.mp named, rfl, stem_ne_nil nonempty,
    fun mem => unbroken (stem_subset name mem)⟩

end FilePath

end DocMarkup
