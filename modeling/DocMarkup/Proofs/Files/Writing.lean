import DocMarkup.Proofs.Files.Location

namespace DocMarkup

theorem decodeText?_encodeText (text : Text) : decodeText? (encodeText text) = some text := by
  have valid : (encodeText text).IsValidUTF8 := (String.ofList text).isValidUTF8
  rw [decodeText?, String.fromUTF8?, dif_pos valid]
  exact congrArg some String.toList_ofList

namespace FileTree

theorem node?_set {tree : FileTree} {location : Location} (below : location ≠ []) (node : FileNode)
    (other : Location) :
    (tree.set location node).node? other = if other = location then some node else tree.node? other := by
  cases other with
  | nil => rw [if_neg below.symm]; rfl
  | cons segment rest =>
    simp only [node?, set, List.lookup_append]
    split
    · rename_i same
      have removed : (tree.nodes.filter fun entry => entry.1 != location).lookup (segment :: rest) =
          none := by
        rw [List.lookup_eq_none_iff]
        intro entry member
        have kept := (List.mem_filter.mp member).2
        rw [same]
        simpa [Ne.symm] using fun eq : location = entry.1 => absurd eq.symm (by simpa using kept)
      rw [removed, same]
      simp
    · rename_i other
      have kept : (tree.nodes.filter fun entry => entry.1 != location).lookup (segment :: rest) =
          tree.nodes.lookup (segment :: rest) := by
        induction tree.nodes with
        | nil => rfl
        | cons entry nodes ih =>
          by_cases same : entry.1 = location
          · have skipped : (segment :: rest == entry.1) = false := by
              rw [same]
              exact beq_eq_false_iff_ne.mpr other
            rw [List.filter_cons_of_neg (by simp [same]), ih, List.lookup_cons, skipped]
          · rw [List.filter_cons_of_pos (by simpa using same), List.lookup_cons, List.lookup_cons, ih]
      have apart : (segment :: rest == location) = false := beq_eq_false_iff_ne.mpr other
      rw [kept, List.lookup_cons, apart]
      simp

/-- What there is, is still there, and directories are still directories. -/
structure Grows (before after : FileTree) : Prop where
  workingDirectory : after.workingDirectory = before.workingDirectory
  present : ∀ location, (before.node? location).isSome → (after.node? location).isSome
  directory : ∀ location, before.isDirectoryAt location = true → after.isDirectoryAt location = true

theorem Grows.trans {before middle after : FileTree} (first : Grows before middle)
    (second : Grows middle after) : Grows before after where
  workingDirectory := second.workingDirectory.trans first.workingDirectory
  present location present := second.present location (first.present location present)
  directory location directory := second.directory location (first.directory location directory)

/-- What there is, is still there as it was. -/
structure Keeps (before after : FileTree) : Prop where
  workingDirectory : after.workingDirectory = before.workingDirectory
  node : ∀ location, (before.node? location).isSome → after.node? location = before.node? location

variable {before after : FileTree}

theorem Keeps.grows (keeps : Keeps before after) : Grows before after where
  workingDirectory := keeps.workingDirectory
  present location present := by rwa [keeps.node location present]
  directory location directory := by
    have found : before.node? location = some .directory := by
      simpa [isDirectoryAt] using directory
    rw [isDirectoryAt, keeps.node location (by rw [found]; rfl), found]
    rfl

theorem Keeps.refl (tree : FileTree) : Keeps tree tree := ⟨rfl, fun _ _ => rfl⟩

theorem Keeps.trans {middle : FileTree} (first : Keeps before middle) (second : Keeps middle after) :
    Keeps before after where
  workingDirectory := second.workingDirectory.trans first.workingDirectory
  node location present := by
    have same := first.node location present
    exact (second.node location (by rwa [same])).trans same

structure IsName (segment : Text) : Prop where
  moves : ¬ (segment = "" ∨ segment = ".")
  down : segment ≠ ".."
  short : ¬ maxNameLength < Text.byteLength segment

def enter (tree : FileTree) (location : Location) (segment : Text) : Except FileError Location :=
  tree.follow location [segment]

theorem enter_eq_ok_iff {tree : FileTree} {location found : Location} {segment : Text} :
    tree.enter location segment = .ok found ↔
      tree.isDirectoryAt location = true ∧
        ((segment = "" ∨ segment = ".") ∧ found = location ∨
          segment = ".." ∧ found = location.dropLast ∨
          IsName segment ∧ (tree.node? (location ++ [segment])).isSome ∧
            found = location ++ [segment]) := by
  simp only [enter, follow]
  constructor
  · intro leads
    split at leads
    · cases leads
    rename_i directory
    refine ⟨by simpa using directory, ?_⟩
    split at leads
    · rename_i still
      exact .inl ⟨still, (Except.ok.inj leads).symm⟩
    rename_i moves
    split at leads
    · rename_i up
      exact .inr (.inl ⟨up, (Except.ok.inj leads).symm⟩)
    rename_i down
    split at leads
    · cases leads
    rename_i short
    split at leads
    · cases leads
    rename_i present
    exact .inr (.inr ⟨⟨moves, down, short⟩, by simpa [Option.isSome_iff_ne_none] using present,
      (Except.ok.inj leads).symm⟩)
  · rintro ⟨directory, ⟨still, rfl⟩ | ⟨rfl, rfl⟩ | ⟨name, present, rfl⟩⟩
    · rw [if_neg (by simp [directory]), if_pos still]
    · rw [if_neg (by simp [directory]), if_neg (by decide), if_pos rfl]
    · rw [if_neg (by simp [directory]), if_neg name.moves, if_neg name.down, if_neg name.short,
        if_neg (by simpa [Option.isSome_iff_ne_none] using present)]

theorem follow_eq_foldlM (tree : FileTree) (location : Location) (segments : List Text) :
    tree.follow location segments = segments.foldlM tree.enter location := by
  induction segments generalizing location with
  | nil => rfl
  | cons segment rest ih =>
    rw [List.foldlM_cons, enter, follow, follow]
    split
    · rfl
    split
    · exact ih location
    split
    · exact ih _
    split
    · rfl
    split
    · rfl
    · exact ih _

theorem follow_concat {tree : FileTree} {start middle found : Location} {segments : List Text}
    {segment : Text} (leads : tree.follow start segments = .ok middle)
    (enters : tree.enter middle segment = .ok found) :
    tree.follow start (segments ++ [segment]) = .ok found := by
  rw [follow_eq_foldlM] at leads ⊢
  rw [List.foldlM_append, leads]
  show [segment].foldlM tree.enter middle = .ok found
  rw [List.foldlM_cons, enters]
  rfl

theorem Grows.enter (grows : Grows before after) {location found : Location} {segment : Text}
    (leads : before.enter location segment = .ok found) :
    after.enter location segment = .ok found := by
  obtain ⟨directory, cases⟩ := enter_eq_ok_iff.mp leads
  refine enter_eq_ok_iff.mpr ⟨grows.directory location directory, ?_⟩
  rcases cases with still | up | ⟨name, present, rfl⟩
  · exact .inl still
  · exact .inr (.inl up)
  · exact .inr (.inr ⟨name, grows.present _ present, rfl⟩)

theorem Grows.follow (grows : Grows before after) {start found : Location} {segments : List Text}
    (leads : before.follow start segments = .ok found) :
    after.follow start segments = .ok found := by
  rw [follow_eq_foldlM] at leads ⊢
  induction segments generalizing start with
  | nil => exact leads
  | cons segment rest ih =>
    rw [List.foldlM_cons] at leads ⊢
    cases entered : before.enter start segment with
    | error cause =>
      rw [entered] at leads
      cases leads
    | ok next =>
      rw [entered] at leads
      rw [grows.enter entered]
      exact ih leads

theorem Grows.locate (grows : Grows before after) {path : FilePath} {found : Location}
    (leads : before.locate path = .ok found) : after.locate path = .ok found := by
  simp only [FileTree.locate, Bind.bind, Except.bind, origin] at leads ⊢
  split at leads
  · cases leads
  · rw [grows.workingDirectory]
    exact grows.follow leads

theorem read_eq_ok_iff {tree : FileTree} {path : FilePath} {text : Text} :
    tree.read path = .ok text ↔ ∃ location content, tree.locate path = .ok location ∧
      tree.node? location = some (.file content) ∧ decodeText? content = some text := by
  simp only [read, Bind.bind, Except.bind]
  cases tree.locate path with
  | error cause => simp
  | ok location =>
    cases found : tree.node? location with
    | none => simp [found]
    | some node =>
      cases node with
      | directory => simp [found]
      | file content => cases decoded : decodeText? content <;> simp [found, decoded]

theorem Keeps.read (keeps : Keeps before after) {path : FilePath} {text : Text}
    (read : before.read path = .ok text) : after.read path = .ok text := by
  obtain ⟨location, content, leads, found, decoded⟩ := read_eq_ok_iff.mp read
  have kept := keeps.node location (by rw [found]; rfl)
  exact read_eq_ok_iff.mpr ⟨location, content, keeps.grows.locate leads, kept.trans found, decoded⟩

theorem grows_set {tree : FileTree} {location : Location} (below : location ≠ [])
    (free : tree.isDirectoryAt location = false) (node : FileNode) :
    Grows tree (tree.set location node) where
  workingDirectory := rfl
  present other present := by
    rw [node?_set below]
    split
    · rfl
    · exact present
  directory other directory := by
    have apart : other ≠ location := by
      rintro rfl
      rw [directory] at free
      cases free
    rwa [isDirectoryAt, node?_set below, if_neg apart]

theorem keeps_set {tree : FileTree} {location : Location} (below : location ≠ [])
    (free : tree.node? location = none) (node : FileNode) :
    Keeps tree (tree.set location node) where
  workingDirectory := rfl
  node other present := by
    have apart : other ≠ location := by
      rintro rfl
      rw [free] at present
      cases present
    rw [node?_set below, if_neg apart]

theorem site_eq_some {tree : FileTree} {path : FilePath} {segments : List Text}
    {directory : Location} {name : Text} (site : tree.site path segments = .ok (directory, some name)) :
    refuse path = .ok () ∧ tree.follow (tree.origin path) segments.dropLast = .ok directory ∧
      tree.isDirectoryAt directory = true ∧ name = segments.getLastD [] ∧ IsName name := by
  simp only [FileTree.site, Bind.bind, Except.bind] at site
  split at site
  · cases site
  rename_i accepted
  split at site
  · cases site
  rename_i found leads
  split at site
  · cases site
  rename_i isDirectory
  split at site
  · cases site
  rename_i special
  split at site
  · cases site
  rename_i short
  cases site
  simp only [not_or] at special
  exact ⟨accepted, leads, by simpa using isDirectory, rfl,
    ⟨not_or.mpr ⟨special.1, special.2.1⟩, special.2.2, short⟩⟩

/-- A file that is written is where its path leads, holds what was written, and replaces at most the
file that was there before. -/
theorem write_eq_ok {tree written : FileTree} {path : FilePath} {content : ByteArray}
    (write : tree.write path content = .ok written) :
    ∃ location, location ≠ [] ∧ tree.isDirectoryAt location = false ∧
      written = tree.set location (.file content) ∧ written.locate path = .ok location := by
  simp only [FileTree.write, Bind.bind, Except.bind] at write
  split at write
  · cases write
  rename_i place site
  obtain ⟨directory, name⟩ := place
  cases name with
  | none => cases write
  | some name =>
    simp only at write
    split at write
    · cases write
    rename_i free
    cases write
    obtain ⟨accepted, leads, isDirectory, last, isName⟩ := site_eq_some site
    have below : directory ++ [name] ≠ [] := by simp
    have free : tree.isDirectoryAt (directory ++ [name]) = false := by simpa using free
    refine ⟨directory ++ [name], below, free, rfl, ?_⟩
    have grows := grows_set below free (.file content)
    have segments : (FilePath.segments path).dropLast ++ [name] = FilePath.segments path := by
      have nonempty : FilePath.segments path ≠ [] := List.splitOn_ne_nil _ _
      rw [last, List.getLastD_eq_getLast?, List.getLast?_eq_some_getLast nonempty, Option.getD_some,
        List.dropLast_concat_getLast]
    have enters : (tree.set (directory ++ [name]) (.file content)).enter directory name =
        .ok (directory ++ [name]) :=
      enter_eq_ok_iff.mpr ⟨grows.directory directory isDirectory,
        .inr (.inr ⟨isName, by rw [node?_set below, if_pos rfl]; rfl, rfl⟩)⟩
    simp only [FileTree.locate, Bind.bind, Except.bind, accepted]
    rw [← segments]
    exact follow_concat (grows.follow leads) enters

theorem node?_of_write {tree written : FileTree} {path : FilePath} {content : ByteArray}
    (write : tree.write path content = .ok written) :
    Grows tree written ∧
      written.locate path = .ok (FilePath.namesFrom tree.workingDirectory path) ∧
      ∀ location, written.node? location =
        if FilePath.namesFrom tree.workingDirectory path = location then some (.file content)
        else tree.node? location := by
  obtain ⟨place, below, free, rfl, leads⟩ := write_eq_ok write
  have here := locate_eq_namesFrom leads
  change place = FilePath.namesFrom tree.workingDirectory path at here
  refine ⟨grows_set below free (.file content), here ▸ leads, fun location => ?_⟩
  rw [node?_set below, ← here]
  simp only [eq_comm]

theorem read_of_write {tree written : FileTree} {path : FilePath} {text : Text}
    (write : tree.write path (encodeText text) = .ok written) :
    written.workingDirectory = tree.workingDirectory ∧ written.read path = .ok text ∧
      ∀ other held, tree.read other = .ok held →
        FilePath.namesFrom tree.workingDirectory path ≠
          FilePath.namesFrom tree.workingDirectory other →
        written.read other = .ok held := by
  obtain ⟨location, below, free, rfl, leads⟩ := write_eq_ok write
  have grows := grows_set below free (.file (encodeText text))
  refine ⟨rfl, ?_, ?_⟩
  · exact read_eq_ok_iff.mpr ⟨location, _, leads, by rw [node?_set below, if_pos rfl],
      decodeText?_encodeText text⟩
  · intro other held read apart
    obtain ⟨place, content, leadsOther, found, decoded⟩ := read_eq_ok_iff.mp read
    have elsewhere : place ≠ location := by
      rintro rfl
      exact apart ((locate_eq_namesFrom leads).symm.trans (locate_eq_namesFrom leadsOther))
    exact read_eq_ok_iff.mpr ⟨place, content, grows.locate leadsOther,
      by rw [node?_set below, if_neg elsewhere, found], decoded⟩

theorem keeps_createDirectory {tree made : FileTree} {path : FilePath}
    (create : tree.createDirectory path = .ok made) : Keeps tree made := by
  simp only [createDirectory, Bind.bind, Except.bind] at create
  split at create
  · cases create
  rename_i place site
  obtain ⟨directory, name⟩ := place
  cases name with
  | none => cases create
  | some name =>
    simp only at create
    split at create
    · cases create
    rename_i free
    cases create
    exact keeps_set (by simp) (by simpa [Option.isSome_iff_ne_none] using free) .directory

theorem keeps_keepDirectory {tree made : FileTree} {path : FilePath} {cause : FileError}
    (keep : tree.keepDirectory path cause = .ok made) : Keeps tree made := by
  unfold keepDirectory at keep
  split at keep
  · cases keep
    exact Keeps.refl tree
  · cases keep

theorem keeps_createWithin {tree made : FileTree} {depth : Nat} {path : FilePath}
    (create : tree.createWithin depth path = .ok made) : Keeps tree made := by
  induction depth generalizing path made with
  | zero => cases create
  | succ depth ih =>
    unfold createWithin at create
    split at create
    · cases create
      exact Keeps.refl tree
    · split at create
      · rename_i created
        cases create
        exact keeps_createDirectory created
      · rename_i parent _ _
        simp only [Bind.bind, Except.bind] at create
        split at create
        · cases create
        · rename_i above aboveMade
          have keeps := ih aboveMade
          split at create
          · rename_i created
            cases create
            exact keeps.trans (keeps_createDirectory created)
          · exact keeps.trans (keeps_keepDirectory create)
      · exact keeps_keepDirectory create

theorem keeps_createDirectories {tree made : FileTree} {path : FilePath}
    (create : tree.createDirectories path = .ok made) : Keeps tree made :=
  keeps_createWithin create

end FileTree

end DocMarkup
