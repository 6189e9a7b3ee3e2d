import DocMarkup.Proofs.SourceLink.Containment

namespace DocMarkup

inductive LinkerStep where
  | resolve (domain module fullName : Text)
  | clear
  | change (tree : FileTree)

structure LinkerRun where
  linker : SourceLinker
  tree : FileTree

namespace LinkerRun

def start (config : GithubConfig) (root : FilePath) (tree : FileTree) : LinkerRun :=
  ⟨SourceLinker.ofConfig config root, tree⟩

def step (run : LinkerRun) : LinkerStep → LinkerRun
  | .resolve domain module fullName =>
    { run with linker := (run.linker.resolve run.tree domain module fullName).2 }
  | .clear => { run with linker := run.linker.clear }
  | .change tree => { run with tree }

def after (run : LinkerRun) (steps : List LinkerStep) : LinkerRun := steps.foldl step run

theorem step_keeps (run : LinkerRun) (step : LinkerStep) :
    (run.step step).linker.config = run.linker.config ∧
      (run.step step).linker.root = run.linker.root := by
  cases step with
  | resolve domain module fullName => exact run.linker.resolve_keeps run.tree domain module fullName
  | clear => exact ⟨rfl, rfl⟩
  | change tree => exact ⟨rfl, rfl⟩

theorem after_keeps (run : LinkerRun) (steps : List LinkerStep) :
    (run.after steps).linker.config = run.linker.config ∧
      (run.after steps).linker.root = run.linker.root := by
  induction steps generalizing run with
  | nil => exact ⟨rfl, rfl⟩
  | cons step steps ih =>
    obtain ⟨config, root⟩ := step_keeps run step
    have rest := ih (run.step step)
    rwa [config, root] at rest

/-- Nothing is stale that the cache knows of some files, and the files are those of `tree`. -/
structure Settled (tree : FileTree) (files : List FilePath) (run : LinkerRun) : Prop where
  cache : ∀ file ∈ files, run.linker.cache.AgreesAt run.tree file
  same : ∀ file ∈ files, tree.SameAt run.tree file

variable {tree : FileTree} {files : List FilePath} {run : LinkerRun}

theorem settled_of_empty (empty : run.linker.cache.entries = []) (files : List FilePath) :
    Settled run.tree files run where
  cache := by
    intro file _ outline found
    rw [OutlineCache.cached?, empty] at found
    cases found
  same := fun _ _ => ⟨rfl, rfl⟩

theorem Settled.resolve (settled : Settled tree files run) (domain module fullName : Text) :
    Settled tree files (run.step (.resolve domain module fullName)) where
  cache := fun file member =>
    SourceLinker.agreesAt_resolve (settled.cache file member) domain module fullName
  same := settled.same

theorem Settled.clear (settled : Settled tree files run) :
    Settled tree files (run.step .clear) where
  cache := (settled_of_empty rfl files).cache
  same := settled.same

theorem Settled.change (settled : Settled tree files run) {tree' : FileTree}
    (same : ∀ file ∈ files, tree.SameAt tree' file) :
    Settled tree files (run.step (.change tree')) where
  cache := by
    intro file member outline found isFile
    obtain ⟨there, held⟩ := same file member
    obtain ⟨there', held'⟩ := settled.same file member
    rw [show (run.step (.change tree')).tree = tree' from rfl] at isFile ⊢
    rw [there, ← there'] at isFile
    rw [held, ← held']
    exact settled.cache file member outline found isFile
  same := same

theorem Settled.after (settled : Settled tree files run) {steps : List LinkerStep}
    (same : ∀ tree', LinkerStep.change tree' ∈ steps → ∀ file ∈ files, tree.SameAt tree' file) :
    Settled tree files (run.after steps) := by
  induction steps generalizing run with
  | nil => exact settled
  | cons step steps ih =>
    have next : Settled tree files (run.step step) := by
      cases step with
      | resolve domain module fullName => exact settled.resolve domain module fullName
      | clear => exact settled.clear
      | change tree' => exact settled.change (same tree' List.mem_cons_self)
    exact ih next fun tree' member => same tree' (List.mem_cons_of_mem _ member)

theorem Settled.resolve_eq {module : Text}
    (settled : Settled tree (modulePaths run.linker.root module) run) (domain fullName : Text) :
    (run.linker.resolve run.tree domain module fullName).1 =
      ((SourceLinker.ofConfig run.linker.config run.linker.root).resolve run.tree domain module
        fullName).1 := by
  have agrees : ∀ path, SourceLinker.IsSourcePath run.tree run.linker.root module path →
      run.linker.cache.AgreesAt run.tree (FilePath.join run.linker.root path) := by
    intro path isSource
    apply settled.cache
    exact List.mem_map_of_mem (SourceLinker.mem_relativeModulePaths isSource)
  apply Option.ext
  intro answer
  rw [SourceLinker.resolve_eq_some_iff agrees,
    SourceLinker.resolve_eq_some_iff fun path _ => OutlineCache.isCurrent_ofCapacity _ _ _]
  rfl

theorem after_append (run : LinkerRun) (steps later : List LinkerStep) :
    run.after (steps ++ later) = (run.after steps).after later := List.foldl_append

theorem empty_of_begins (run : LinkerRun) (empty : run.linker.cache.entries = [])
    {steps : List LinkerStep} (begins : steps = [] ∨ ∃ before, steps = before ++ [.clear]) :
    (run.after steps).linker.cache.entries = [] := by
  rcases begins with rfl | ⟨before, rfl⟩
  · exact empty
  · rw [after_append]
    rfl

/-- A linker answers as a new one does, whatever it was asked before, if the two files that the
module can be read from have not changed since it began or was last cleared. For a module that does
not begin with a point or a slash these lie below the root, so it is enough that no file below the
root has changed; any other is read from outside the root. -/
theorem resolve_in_history (config : GithubConfig) (root : FilePath) (tree : FileTree)
    {earlier : List LinkerStep} (begins : earlier = [] ∨ ∃ before, earlier = before ++ [.clear])
    (later : List LinkerStep) (domain module fullName : Text) :
    let since := ((start config root tree).after earlier).tree
    let run := (start config root tree).after (earlier ++ later)
    let asNew := (run.linker.resolve run.tree domain module fullName).1 =
      ((SourceLinker.ofConfig config root).resolve run.tree domain module fullName).1
    ((∀ tree', .change tree' ∈ later → since.SameBelow tree' root) →
        ¬ SourceLinker.LeavesRoot module → asNew) ∧
      ((∀ tree', .change tree' ∈ later → ∀ path ∈ relativeModulePaths module,
        since.SameAt tree' (SourceLinker.placed root module path)) → asNew) := by
  intro since run asNew
  have unchanged (same : ∀ tree', .change tree' ∈ later → ∀ path ∈ relativeModulePaths module,
      since.SameAt tree' (SourceLinker.placed root module path)) : asNew := by
    obtain ⟨config', root'⟩ := after_keeps (start config root tree) (earlier ++ later)
    by_cases empty : module = []
    · have outside (config : GithubConfig) : ¬ SourceLinker.LooksUp config domain module :=
        fun looksUp => looksUp.2.1 empty
      show Prod.fst _ = Prod.fst _
      rw [SourceLinker.resolve_refused (Or.inl (outside _)),
        SourceLinker.resolve_refused (Or.inl (outside _))]
    · have settled : Settled since (modulePaths run.linker.root module) run := by
        rw [show run.linker.root = root from root', show run = _ from after_append _ earlier later]
        apply (settled_of_empty (empty_of_begins _ rfl begins) _).after
        intro tree' changed file member
        obtain ⟨path, candidate, rfl⟩ := List.mem_map.mp member
        rw [SourceLinker.join_eq_placed empty candidate]
        exact same tree' changed path candidate
      have answer := settled.resolve_eq domain fullName
      rwa [show run.linker.config = config from config', show run.linker.root = root from root']
        at answer
  refine ⟨fun same stays => unchanged ?_, unchanged⟩
  intro tree' changed path candidate
  rw [SourceLinker.placed, if_neg stays]
  exact same tree' changed path (SourceLinker.isPlain_of_mem_relativeModulePaths candidate)

def changedLibrary : FileTree :=
  SourceLinker.sampleLibrary.set ["lib", "shapes", "round.py"]
    (.file (encodeText "class Circle:\n    def area(self):\n        pass\n"))

def grownLibrary : FileTree :=
  changedLibrary.set ["lib", "shapes", "flat.py"] (.file (encodeText "x = 1\n"))

def sampleEarlier : List LinkerStep :=
  [.resolve "py" "shapes.round" "Circle", .change changedLibrary] ++ [.clear]

def sampleLater : List LinkerStep :=
  [.resolve "py" "shapes..round" "Circle", .change grownLibrary]

/-- The library with a module beside it. -/
def outerLibrary : FileTree :=
  SourceLinker.sampleLibrary.set ["outer.py"] (.file (encodeText "a = 1\n"))

def changedOuter : FileTree := outerLibrary.set ["outer.py"] (.file (encodeText "b = 0\na = 1\n"))

theorem sameBelow_changedOuter : outerLibrary.SameBelow changedOuter "/lib" := by
  have file : outerLibrary.node? ["outer.py"] = some (.file (encodeText "a = 1\n")) := by
    decide +kernel
  exact FileTree.sameBelow_set file (by decide +kernel) _

theorem resolve_in_sampleHistory :
    let run := (start SourceLinker.sampleConfig "/lib" SourceLinker.sampleLibrary).after
      (sampleEarlier ++ sampleLater)
    let outer := (start SourceLinker.sampleConfig "/lib" outerLibrary).after
      ([] ++ [.resolve "py" "shapes" "UNIT", .change changedOuter])
    (run.linker.cache.size = 1 ∧
        (run.linker.resolve run.tree "py" "shapes.round" "Circle.area").1 =
          ((SourceLinker.ofConfig SourceLinker.sampleConfig "/lib").resolve run.tree "py"
            "shapes.round" "Circle.area").1) ∧
      outer.linker.cache.size = 1 ∧
        (outer.linker.resolve outer.tree "py" "shapes" "UNIT").1 =
          ((SourceLinker.ofConfig SourceLinker.sampleConfig "/lib").resolve outer.tree "py"
            "shapes" "UNIT").1 := by
  have unchanged : ∀ tree', LinkerStep.change tree' ∈ sampleLater →
      ∀ path ∈ relativeModulePaths "shapes.round",
        ((start SourceLinker.sampleConfig "/lib" SourceLinker.sampleLibrary).after
          sampleEarlier).tree.SameAt tree' (SourceLinker.placed "/lib" "shapes.round" path) := by
    intro tree' member
    have only : tree' = grownLibrary := by simpa [sampleLater] using member
    subst only
    show ∀ path ∈ _, changedLibrary.SameAt grownLibrary _
    decide +kernel
  refine ⟨⟨by decide +kernel, ?_⟩, by decide +kernel, ?_⟩
  · exact (resolve_in_history SourceLinker.sampleConfig "/lib" SourceLinker.sampleLibrary
      (Or.inr ⟨_, rfl⟩) sampleLater "py" "shapes.round" "Circle.area").2 unchanged
  · refine (resolve_in_history SourceLinker.sampleConfig "/lib" outerLibrary (Or.inl rfl)
      [.resolve "py" "shapes" "UNIT", .change changedOuter] "py" "shapes" "UNIT").1 ?_ (by decide)
    intro tree' member
    have only : tree' = changedOuter := by simpa using member
    rw [only]
    exact sameBelow_changedOuter

/-- A module outside the root is cached, and then it changes while no file below the root does. -/
theorem not_forall_resolve_in_history :
    ¬ ∀ (config : GithubConfig) (root : FilePath) (tree : FileTree) (earlier later : List LinkerStep)
      (domain module fullName : Text),
      (earlier = [] ∨ ∃ before, earlier = before ++ [.clear]) →
      (∀ tree', .change tree' ∈ later →
        ((start config root tree).after earlier).tree.SameBelow tree' root) →
      let run := (start config root tree).after (earlier ++ later)
      (run.linker.resolve run.tree domain module fullName).1 =
        ((SourceLinker.ofConfig config root).resolve run.tree domain module fullName).1 := by
  intro asNew
  have same := asNew {} "/lib" outerLibrary [] [.resolve "py" "/outer" "a", .change changedOuter]
    "py" "/outer" "a" (Or.inl rfl) (by
      intro tree' member
      have only : tree' = changedOuter := by simpa using member
      rw [only]
      exact sameBelow_changedOuter)
  exact absurd same (by decide +kernel)

end LinkerRun

end DocMarkup
