import DocMarkup.Proofs.Files.Below
import DocMarkup.Proofs.Outline.Lookup
import DocMarkup.Proofs.Outline.Recency
import DocMarkup.SourceLink

namespace DocMarkup

namespace OutlineCache

/-- If the cache knows an outline for a file, it is that of what the file holds. -/
def AgreesAt (cache : OutlineCache) (tree : FileTree) (path : FilePath) : Prop :=
  ∀ outline, cache.cached? path = some outline → tree.isFile path = true →
    ∃ source, tree.read path = .ok source ∧ outline = Outline.ofSource source

def IsCurrent (cache : OutlineCache) (tree : FileTree) : Prop := ∀ path, cache.AgreesAt tree path

variable {cache : OutlineCache} {tree : FileTree} {path : FilePath}

theorem isCurrent_ofCapacity (capacity : Nat) (tree : FileTree) :
    (ofCapacity capacity).IsCurrent tree := by
  intro path outline found
  cases found

theorem load_of_agreesAt (agrees : cache.AgreesAt tree path) (file : tree.isFile path = true)
    {source : Text} (read : tree.read path = .ok source) :
    ∃ loaded, cache.load tree path = (.ok (Outline.ofSource source), loaded) := by
  cases found : cache.cached? path with
  | none => exact ⟨_, load_of_read found read⟩
  | some outline =>
    obtain ⟨held, same, rfl⟩ := agrees outline found file
    rw [read] at same
    cases same
    exact ⟨_, load_of_cached found tree⟩

theorem load_error_of_agreesAt (agrees : cache.AgreesAt tree path)
    (file : tree.isFile path = true) {cause : FileError} (read : tree.read path = .error cause) :
    cache.load tree path = (.error ⟨path, cause⟩, cache) := by
  cases found : cache.cached? path with
  | none => exact load_of_error found read
  | some outline =>
    obtain ⟨held, same, -⟩ := agrees outline found file
    rw [read] at same
    cases same

theorem cached?_promote_of_ne {key : List PathPart} (other : FilePath.parts path ≠ key)
    (outline : Outline) : (cache.promote key outline).cached? path = cache.cached? path := by
  have front : (FilePath.parts path == key) = false := beq_eq_false_iff_ne.mpr other
  unfold cached? promote
  rw [List.lookup_cons, front]
  show (cache.entries.eraseP (·.1 == key)).lookup _ = _
  induction cache.entries with
  | nil => rfl
  | cons entry entries ih =>
    cases erased : entry.1 == key with
    | true => rw [List.eraseP_cons, erased, cond_true, List.lookup_cons, eq_of_beq erased, front]
    | false => rw [List.eraseP_cons, erased, cond_false, List.lookup_cons, List.lookup_cons, ih]

theorem cached?_of_insert_of_ne {key : List PathPart} (other : FilePath.parts path ≠ key)
    {outline found : Outline} (known : (cache.insert key outline).cached? path = some found) :
    cache.cached? path = some found := by
  have front : (FilePath.parts path == key) = false := beq_eq_false_iff_ne.mpr other
  unfold cached? insert at known
  rw [List.lookup_cons, front] at known
  exact (List.take_prefix _ _).lookup_eq_some known

theorem cached?_of_load {other : FilePath} {known : Outline}
    (inside : (cache.load tree path).2.cached? other = some known) :
    cache.cached? other = some known ∨
      FilePath.parts other = FilePath.parts path ∧
        ∃ source, tree.read path = .ok source ∧ known = Outline.ofSource source := by
  cases found : cache.cached? path with
  | some held =>
    rw [load_of_cached found] at inside
    by_cases same : FilePath.parts other = FilePath.parts path
    · rw [cached?, same, promote, List.lookup_cons_self] at inside
      rw [cached?, same, ← inside]
      exact Or.inl found
    · rw [cached?_promote_of_ne same] at inside
      exact Or.inl inside
  | none =>
    cases read : tree.read path with
    | error cause =>
      rw [load_of_error found read] at inside
      exact Or.inl inside
    | ok source =>
      rw [load_of_read found read] at inside
      by_cases same : FilePath.parts other = FilePath.parts path
      · rw [cached?, same, insert, List.lookup_cons_self] at inside
        exact Or.inr ⟨same, source, rfl, (Option.some.inj inside).symm⟩
      · exact Or.inl (cached?_of_insert_of_ne same inside)

theorem AgreesAt.load {other : FilePath} (agrees : cache.AgreesAt tree other)
    (file : tree.isFile path = true) : (cache.load tree path).2.AgreesAt tree other := by
  intro known inside fileOther
  rcases cached?_of_load inside with before | ⟨same, source, read, rfl⟩
  · exact agrees known before fileOther
  · rw [FileTree.read_eq_of_parts same fileOther file]
    exact ⟨source, read, rfl⟩

end OutlineCache

namespace SourceLinker

/-- The linker looks for a file: the domain is that of Python, there is a module, and its top-level
package has links. -/
def LooksUp (config : GithubConfig) (domain module : Text) : Prop :=
  domain = "py" ∧ module ≠ [] ∧
    (config.allowedModules = [] ∨ module.takeWhile (· != '.') ∈ config.allowedModules)

def slashed (module : Text) : FilePath := module.map fun c => if c == '.' then '/' else c

/-- The path of the file that a module is read from, when `place` says where a path is looked up. -/
def IsModulePath (tree : FileTree) (place : FilePath → FilePath) (module path : Text) : Prop :=
  tree.isFile (place path) = true ∧
    (path = slashed module ++ ".py" ∨
      tree.isFile (place (slashed module ++ ".py")) = false ∧
        path = slashed module ++ "/__init__.py")

def IsSourcePath (tree : FileTree) (root : FilePath) (module path : Text) : Prop :=
  IsModulePath tree (FilePath.join root) module path

/-- The module begins with a character that becomes a slash or is one. -/
def LeavesRoot (module : Text) : Prop := module.head? = some '.' ∨ module.head? = some '/'

instance (module : Text) : Decidable (LeavesRoot module) := inferInstanceAs (Decidable (_ ∨ _))

/-- Where a path of a module is looked up: below the root, or as it is if the module leaves that. -/
def placed (root : FilePath) (module : Text) (path : FilePath) : FilePath :=
  if LeavesRoot module then path else FilePath.under root path

theorem isAbsolute_iff_leavesRoot {module path : Text} (nonempty : module ≠ [])
    (candidate : path ∈ relativeModulePaths module) :
    FilePath.isAbsolute path = true ↔ LeavesRoot module := by
  obtain ⟨c, rest, rfl⟩ := List.exists_cons_of_ne_nil nonempty
  have first : FilePath.isAbsolute path = ((if c == '.' then '/' else c) == '/') := by
    rcases List.mem_pair.mp candidate with rfl | rfl <;> rfl
  rw [first]
  by_cases point : c = '.' <;> simp [LeavesRoot, point]

theorem join_eq_placed {module path : Text} (nonempty : module ≠ [])
    (candidate : path ∈ relativeModulePaths module) (root : FilePath) :
    FilePath.join root path = placed root module path := by
  have absolute := isAbsolute_iff_leavesRoot nonempty candidate
  unfold placed
  split
  · rename_i leaves
    rw [FilePath.join, absolute.mpr leaves, Bool.true_or, if_pos rfl]
  · rename_i stays
    rw [← absolute, Bool.not_eq_true] at stays
    exact FilePath.join_eq_under stays root

theorem mem_relativeModulePaths {tree : FileTree} {place : FilePath → FilePath} {module path : Text}
    (isModule : IsModulePath tree place module path) : path ∈ relativeModulePaths module := by
  rcases isModule.2 with rfl | ⟨-, rfl⟩
  · exact List.mem_cons_self
  · exact List.mem_cons_of_mem _ List.mem_cons_self

theorem IsModulePath.congr {tree : FileTree} {place place' : FilePath → FilePath}
    {module path : Text} (same : ∀ path ∈ relativeModulePaths module, place path = place' path)
    (isModule : IsModulePath tree place module path) : IsModulePath tree place' module path := by
  have first : slashed module ++ ".py" ∈ relativeModulePaths module := List.mem_cons_self
  have here := same path (mem_relativeModulePaths isModule)
  rw [IsModulePath, here, same _ first] at isModule
  exact isModule

theorem isSourcePath_iff_placed {tree : FileTree} {root : FilePath} {module path : Text}
    (nonempty : module ≠ []) :
    IsSourcePath tree root module path ↔ IsModulePath tree (placed root module) module path :=
  ⟨IsModulePath.congr fun _ candidate => join_eq_placed nonempty candidate root,
    IsModulePath.congr fun _ candidate => (join_eq_placed nonempty candidate root).symm⟩

theorem exists_slashed_eq (module : Text) :
    ∃ rest, slashed module = module.takeWhile (· != '.') ++ rest ∧
      (rest = [] ∨ rest.head? = some '/') := by
  induction module with
  | nil => exact ⟨[], rfl, Or.inl rfl⟩
  | cons c module ih =>
    by_cases point : c = '.'
    · subst point
      exact ⟨_, rfl, Or.inr rfl⟩
    · obtain ⟨rest, same, ends⟩ := ih
      have kept : (c == '.') = false := beq_eq_false_iff_ne.mpr point
      refine ⟨rest, ?_, ends⟩
      simp only [slashed, List.map_cons, List.takeWhile_cons, bne, kept, Bool.not_false, if_true,
        Bool.false_eq_true, if_false, List.cons_append, List.cons.injEq, true_and]
      exact same

theorem looksUp_iff {config : GithubConfig} {domain module : Text} :
    LooksUp config domain module ↔
      ¬ (domain ≠ "py" ∨ module.isEmpty = true ∨ (!allows config module) = true) := by
  simp [LooksUp, allows, or_iff_not_imp_left]

theorem find?_pair_eq_some_iff {α : Type} {p : α → Bool} {first second found : α} :
    [first, second].find? p = some found ↔
      p found = true ∧ (found = first ∨ p first = false ∧ found = second) := by
  cases holds : p first with
  | true =>
    rw [List.find?_cons_of_pos holds]
    constructor
    · intro same
      cases same
      exact ⟨holds, Or.inl rfl⟩
    · rintro ⟨-, rfl | ⟨absurd, -⟩⟩
      · rfl
      · cases absurd
  | false =>
    rw [List.find?_cons_of_neg (by rw [holds]; decide), List.find?_singleton]
    constructor
    · intro same
      split at same
      · rename_i satisfied
        cases same
        exact ⟨satisfied, Or.inr ⟨rfl, rfl⟩⟩
      · cases same
    · rintro ⟨satisfied, rfl | ⟨-, rfl⟩⟩
      · rw [holds] at satisfied
        cases satisfied
      · rw [if_pos satisfied]

theorem moduleFile?_eq_some_iff {tree : FileTree} {root : FilePath} {module : Text}
    {found : FilePath × Text} :
    moduleFile? tree root module = some found ↔
      found.1 = FilePath.join root found.2 ∧ IsSourcePath tree root module found.2 := by
  obtain ⟨file, path⟩ := found
  have candidates : moduleFile? tree root module = some (file, path) ↔
      tree.isFile file = true ∧
        ((file, path) = (FilePath.join root (slashed module ++ ".py"), slashed module ++ ".py") ∨
          tree.isFile (FilePath.join root (slashed module ++ ".py")) = false ∧
            (file, path) = (FilePath.join root (slashed module ++ "/__init__.py"),
              slashed module ++ "/__init__.py")) := find?_pair_eq_some_iff
  rw [candidates, Prod.mk.injEq, Prod.mk.injEq, IsSourcePath, IsModulePath]
  show _ ↔ file = FilePath.join root path ∧ tree.isFile (FilePath.join root path) = true ∧
    (path = slashed module ++ ".py" ∨ _ ∧ path = slashed module ++ "/__init__.py")
  constructor
  · rintro ⟨isFile, ⟨rfl, rfl⟩ | ⟨absent, rfl, rfl⟩⟩
    · exact ⟨rfl, isFile, Or.inl rfl⟩
    · exact ⟨rfl, isFile, Or.inr ⟨absent, rfl⟩⟩
  · rintro ⟨rfl, isFile, rfl | ⟨absent, rfl⟩⟩
    · exact ⟨isFile, Or.inl ⟨rfl, rfl⟩⟩
    · exact ⟨isFile, Or.inr ⟨absent, rfl, rfl⟩⟩

theorem IsModulePath.begins {tree : FileTree} {place : FilePath → FilePath} {module path : Text}
    (isModule : IsModulePath tree place module path) :
    let package := module.takeWhile (· != '.')
    (package ++ "/" : Text) <+: path ∨ (package ++ ".py" : Text) <+: path := by
  intro package
  obtain ⟨rest, same, none | more⟩ := exists_slashed_eq module
  · rw [none, List.append_nil] at same
    rcases isModule.2 with rfl | ⟨-, rfl⟩ <;> rw [same]
    · exact Or.inr (List.prefix_refl _)
    · exact Or.inl ((List.prefix_append_right_inj _).mpr ⟨_, rfl⟩)
  · obtain ⟨behind, rfl⟩ := List.head?_eq_some_iff.mp more
    rcases isModule.2 with rfl | ⟨-, rfl⟩ <;> rw [same, List.append_assoc]
    · exact Or.inl ((List.prefix_append_right_inj _).mpr ⟨_, rfl⟩)
    · exact Or.inl ((List.prefix_append_right_inj _).mpr ⟨_, rfl⟩)

theorem resolve_refused {linker : SourceLinker} {tree : FileTree} {domain module : Text}
    (refused : ¬ LooksUp linker.config domain module ∨
      ∀ path, ¬ IsSourcePath tree linker.root module path) (fullName : Text) :
    linker.resolve tree domain module fullName = (none, linker) := by
  unfold resolve
  split
  · rfl
  rename_i passed
  rcases refused with outside | missing
  · exact absurd (looksUp_iff.mpr passed) outside
  · cases found : moduleFile? tree linker.root module with
    | none => rfl
    | some parts => exact absurd (moduleFile?_eq_some_iff.mp found).2 (missing _)

theorem resolve_of_source {linker : SourceLinker} {tree : FileTree} {domain module path : Text}
    (looksUp : LooksUp linker.config domain module)
    (isSource : IsSourcePath tree linker.root module path) (fullName : Text) :
    linker.resolve tree domain module fullName =
      match linker.cache.load tree (FilePath.join linker.root path) with
      | (.error _, cache) => (none, { linker with cache })
      | (.ok outline, cache) =>
        ((outline.find? (Outline.pathOf fullName)).map fun node => url linker.config path node.line,
          { linker with cache }) := by
  have found : moduleFile? tree linker.root module = some (FilePath.join linker.root path, path) :=
    moduleFile?_eq_some_iff.mpr ⟨rfl, isSource⟩
  unfold resolve
  rw [if_neg (looksUp_iff.mp looksUp)]
  rcases load : linker.cache.load tree (FilePath.join linker.root path) with ⟨_ | outline, cache⟩ <;>
    simp only [found, load]

theorem cache_of_source {linker : SourceLinker} {tree : FileTree} {domain module path : Text}
    (looksUp : LooksUp linker.config domain module)
    (isSource : IsSourcePath tree linker.root module path) (fullName : Text) :
    (linker.resolve tree domain module fullName).2.cache =
      (linker.cache.load tree (FilePath.join linker.root path)).2 := by
  rw [resolve_of_source looksUp isSource]
  split <;> rename_i load <;> rw [load]

theorem resolve_unreadable {linker : SourceLinker} {tree : FileTree} {domain module path : Text}
    (looksUp : LooksUp linker.config domain module)
    (isSource : IsSourcePath tree linker.root module path)
    (agrees : linker.cache.AgreesAt tree (FilePath.join linker.root path)) {cause : FileError}
    (read : tree.read (FilePath.join linker.root path) = .error cause) (fullName : Text) :
    linker.resolve tree domain module fullName = (none, linker) := by
  rw [resolve_of_source looksUp isSource,
    OutlineCache.load_error_of_agreesAt agrees isSource.1 read]

theorem resolve_eq_some_iff {linker : SourceLinker} {tree : FileTree} {domain module : Text}
    (agrees : ∀ path, IsSourcePath tree linker.root module path →
      linker.cache.AgreesAt tree (FilePath.join linker.root path)) {fullName answer : Text} :
    (linker.resolve tree domain module fullName).1 = some answer ↔
      LooksUp linker.config domain module ∧ ∃ path source node,
        IsSourcePath tree linker.root module path ∧
        tree.read (FilePath.join linker.root path) = .ok source ∧
        (Outline.ofSource source).find? (Outline.pathOf fullName) = some node ∧
        answer = url linker.config path node.line := by
  constructor
  · intro answered
    by_cases looksUp : LooksUp linker.config domain module
    · by_cases located : ∃ path, IsSourcePath tree linker.root module path
      · obtain ⟨path, isSource⟩ := located
        rw [resolve_of_source looksUp isSource] at answered
        cases read : tree.read (FilePath.join linker.root path) with
        | error cause =>
          rw [OutlineCache.load_error_of_agreesAt (agrees path isSource) isSource.1 read] at answered
          cases answered
        | ok source =>
          obtain ⟨cache, load⟩ :=
            OutlineCache.load_of_agreesAt (agrees path isSource) isSource.1 read
          rw [load] at answered
          obtain ⟨node, found, same⟩ := Option.map_eq_some_iff.mp answered
          exact ⟨looksUp, path, source, node, isSource, read, found, same.symm⟩
      · rw [resolve_refused (Or.inr (not_exists.mp located))] at answered
        cases answered
    · rw [resolve_refused (Or.inl looksUp)] at answered
      cases answered
  · rintro ⟨looksUp, path, source, node, isSource, read, found, rfl⟩
    obtain ⟨cache, load⟩ := OutlineCache.load_of_agreesAt (agrees path isSource) isSource.1 read
    rw [resolve_of_source looksUp isSource, load]
    exact congrArg (Option.map _) found

theorem resolve_keeps (linker : SourceLinker) (tree : FileTree) (domain module fullName : Text) :
    (linker.resolve tree domain module fullName).2.config = linker.config ∧
      (linker.resolve tree domain module fullName).2.root = linker.root := by
  unfold resolve
  split
  · exact ⟨rfl, rfl⟩
  split
  · exact ⟨rfl, rfl⟩
  split <;> exact ⟨rfl, rfl⟩

theorem agreesAt_resolve {linker : SourceLinker} {tree : FileTree} {file : FilePath}
    (agrees : linker.cache.AgreesAt tree file) (domain module fullName : Text) :
    (linker.resolve tree domain module fullName).2.cache.AgreesAt tree file := by
  by_cases looksUp : LooksUp linker.config domain module
  · by_cases located : ∃ path, IsSourcePath tree linker.root module path
    · obtain ⟨path, isSource⟩ := located
      rw [cache_of_source looksUp isSource]
      exact agrees.load isSource.1
    · rw [resolve_refused (Or.inr (not_exists.mp located))]
      exact agrees
  · rw [resolve_refused (Or.inl looksUp)]
    exact agrees

theorem line_of_find? {source : Text} {path : List Text} {node : OutlineNode}
    (found : (Outline.ofSource source).find? path = some node) :
    1 ≤ node.line ∧ node.line ≤ source.lines.length := by
  obtain ⟨above, finds⟩ := Outline.find?_eq_some_iff.mp found
  obtain ⟨entry, member, rfl⟩ := finds.leads.1.mem_placed none
  obtain ⟨positive, line, numbered, -⟩ := Outline.exists_line_of_mem_placed member
  have inside := (List.getElem?_eq_some_iff.mp numbered).1
  omega

/-- With nothing stale in its cache a linker answers by a link just if the query is one that it
looks up, the module has a file that can be read, and the outline of the file has the name. The link
is to the line, one of those of the file, on which the outline has the name. The file lies below the
root if the module does not begin with a point or a slash; if it does, its path is taken as it is and
the root plays no part. If only some packages have links the path in a link begins with the name of
one of them. A query for which no file is looked up, found or read leaves everything as it is. -/
theorem resolve_links {linker : SourceLinker} {tree : FileTree}
    (current : linker.cache.IsCurrent tree) (domain module fullName : Text) :
    let place := placed linker.root module
    (∀ answer, (linker.resolve tree domain module fullName).1 = some answer ↔
        LooksUp linker.config domain module ∧ ∃ path source node,
          IsModulePath tree place module path ∧ tree.read (place path) = .ok source ∧
          (Outline.ofSource source).find? (Outline.pathOf fullName) = some node ∧
          answer = "https://github.com/" ++ linker.config.org ++ "/" ++ linker.config.repo ++
            "/blob/" ++ linker.config.branch ++ "/" ++ linker.config.sourcePrefix ++ path ++
            "#L" ++ Nat.toDigits 10 node.line) ∧
      (∀ source node, (Outline.ofSource source).find? (Outline.pathOf fullName) = some node →
        1 ≤ node.line ∧ node.line ≤ source.lines.length) ∧
      (∀ path, LooksUp linker.config domain module → IsModulePath tree place module path →
        linker.config.allowedModules ≠ [] →
          ∃ name ∈ linker.config.allowedModules,
            (name ++ "/" : Text) <+: path ∨ (name ++ ".py" : Text) <+: path) ∧
      (¬ LooksUp linker.config domain module ∨
          (∀ path, ¬ IsModulePath tree place module path) ∨
          (∃ path cause, IsModulePath tree place module path ∧
            tree.read (place path) = .error cause) →
        linker.resolve tree domain module fullName = (none, linker)) := by
  intro place
  have agrees := fun path (_ : IsSourcePath tree linker.root module path) =>
    current (FilePath.join linker.root path)
  have source (nonempty : module ≠ []) (path : Text) :
      IsSourcePath tree linker.root module path ↔ IsModulePath tree place module path :=
    isSourcePath_iff_placed nonempty
  have located (nonempty : module ≠ []) {path : Text} (isModule : IsModulePath tree place module path) :
      FilePath.join linker.root path = place path :=
    join_eq_placed nonempty (mem_relativeModulePaths isModule) linker.root
  refine ⟨?_, fun _ _ => line_of_find?, ?_, ?_⟩
  · intro answer
    rw [resolve_eq_some_iff agrees]
    constructor
    · rintro ⟨looksUp, path, text, node, isSource, read, found, same⟩
      have isModule := (source looksUp.2.1 path).mp isSource
      rw [located looksUp.2.1 isModule] at read
      exact ⟨looksUp, path, text, node, isModule, read, found, same⟩
    · rintro ⟨looksUp, path, text, node, isModule, read, found, same⟩
      rw [← located looksUp.2.1 isModule] at read
      exact ⟨looksUp, path, text, node, (source looksUp.2.1 path).mpr isModule, read, found, same⟩
  · intro path looksUp isModule some
    exact ⟨_, looksUp.2.2.resolve_left some, isModule.begins⟩
  · intro refused
    by_cases looksUp : LooksUp linker.config domain module
    · rcases refused with outside | missing | ⟨path, cause, isModule, read⟩
      · exact absurd looksUp outside
      · refine resolve_refused (Or.inr fun path isSource => ?_) fullName
        exact missing path ((source looksUp.2.1 path).mp isSource)
      · have isSource := (source looksUp.2.1 path).mpr isModule
        rw [← located looksUp.2.1 isModule] at read
        exact resolve_unreadable looksUp isSource (agrees path isSource) read fullName
    · exact resolve_refused (Or.inl looksUp) fullName

def sampleLibrary : FileTree where
  nodes := [
    (["lib"], .directory),
    (["lib", "shapes"], .directory),
    (["lib", "shapes", "__init__.py"], .file (encodeText "UNIT = 1\n")),
    (["lib", "shapes", "round.py"],
      .file (encodeText "import math\n\nclass Circle:\n    def area(self):\n        pass\n"))]
  workingDirectory := []

def sampleConfig : GithubConfig where
  org := "acme"
  repo := "widgets"
  branch := "main"
  sourcePrefix := "src/"
  allowedModules := ["shapes"]

theorem resolve_sampleLibrary :
    let linker := ((ofConfig sampleConfig "/lib").resolve sampleLibrary "py" "shapes" "UNIT").2
    linker.cache.IsCurrent sampleLibrary ∧
      (linker.resolve sampleLibrary "py" "shapes.round" "Circle.area").1 =
        some ("https://github.com/acme/widgets/blob/main/src/shapes/round.py#L4" : Text) := by
  intro linker
  have current : linker.cache.IsCurrent sampleLibrary :=
    fun path => agreesAt_resolve (OutlineCache.isCurrent_ofCapacity _ _ path) _ _ _
  obtain ⟨config, root⟩ := resolve_keeps (ofConfig sampleConfig "/lib") sampleLibrary "py" "shapes"
    "UNIT"
  refine ⟨current, ?_⟩
  rw [(resolve_links current "py" "shapes.round" "Circle.area").1]
  rw [show linker.config = sampleConfig from config, show linker.root = "/lib" from root]
  refine ⟨⟨rfl, by decide, Or.inr (by decide)⟩, "shapes/round.py", ?_⟩
  have located : ((Outline.ofSource
      "import math\n\nclass Circle:\n    def area(self):\n        pass\n").find?
        (Outline.pathOf "Circle.area")).map OutlineNode.line = some 4 := by decide +kernel
  obtain ⟨node, found, line⟩ := Option.map_eq_some_iff.mp located
  refine ⟨_, node, ⟨by decide +kernel, Or.inl rfl⟩, ?_, found, ?_⟩
  · decide +kernel
  · rw [line]
    decide +kernel

/-- A module that begins with a slash has a link, though it has no file below the root. -/
theorem not_forall_links_below_root :
    ¬ ∀ (linker : SourceLinker) (tree : FileTree) (domain module fullName answer : Text),
      linker.cache.IsCurrent tree →
        let place := FilePath.under linker.root
        ((linker.resolve tree domain module fullName).1 = some answer ↔
          LooksUp linker.config domain module ∧ ∃ path source node,
            IsModulePath tree place module path ∧ tree.read (place path) = .ok source ∧
            (Outline.ofSource source).find? (Outline.pathOf fullName) = some node ∧
            answer = "https://github.com/" ++ linker.config.org ++ "/" ++ linker.config.repo ++
              "/blob/" ++ linker.config.branch ++ "/" ++ linker.config.sourcePrefix ++ path ++
              "#L" ++ Nat.toDigits 10 node.line) := by
  intro links
  let linker := ofConfig { sampleConfig with allowedModules := [] } "/src"
  have answered : (linker.resolve sampleLibrary "py" "/lib/shapes/round" "Circle").1 =
      some ("https://github.com/acme/widgets/blob/main/src//lib/shapes/round.py#L3" : Text) := by
    decide +kernel
  obtain ⟨-, path, -, -, isModule, -⟩ :=
    (links linker sampleLibrary _ _ _ _ (OutlineCache.isCurrent_ofCapacity _ _)).mp answered
  have missing : ∀ path ∈ relativeModulePaths "/lib/shapes/round",
      sampleLibrary.isFile (FilePath.under "/src" path) = false := by decide +kernel
  have found : sampleLibrary.isFile (FilePath.under "/src" path) = true := isModule.1
  rw [missing path (mem_relativeModulePaths isModule)] at found
  cases found

end SourceLinker

end DocMarkup
