import DocMarkup.Outline.Cache

namespace DocMarkup

section Latest

variable {α : Type} [BEq α] [LawfulBEq α]

theorem eraseDups_filter (p : α → Bool) (keys : List α) :
    (keys.filter p).eraseDups = keys.eraseDups.filter p := by
  match keys with
  | [] => rfl
  | key :: rest =>
    have shorter : (rest.filter fun other => !other == key).length < rest.length + 1 :=
      Nat.lt_succ_of_le (List.length_filter_le _ _)
    have others := eraseDups_filter p (rest.filter fun other => !other == key)
    rw [List.eraseDups_cons]
    by_cases kept : p key = true
    · rw [List.filter_cons_of_pos kept, List.filter_cons_of_pos kept, List.eraseDups_cons, ← others,
        List.filter_filter, List.filter_filter]
      simp only [Bool.and_comm]
    · rw [List.filter_cons_of_neg kept, List.filter_cons_of_neg kept, ← others, List.filter_filter]
      congr 1
      refine List.filter_congr ?_
      intro other _
      by_cases same : other = key
      · rw [same]
        simp [kept]
      · simp [same]
termination_by keys.length

theorem eraseDups_cons_filter (key : α) (keys : List α) :
    (key :: keys).eraseDups = key :: keys.eraseDups.filter fun other => !other == key := by
  rw [List.eraseDups_cons, eraseDups_filter]

theorem nodup_eraseDups (keys : List α) : keys.eraseDups.Nodup := by
  induction keys with
  | nil => exact List.nodup_nil
  | cons key keys ih =>
    rw [eraseDups_cons_filter, List.nodup_cons]
    exact ⟨by simp, ih.filter _⟩

theorem take_filter_ne {keys : List α} (distinct : keys.Nodup) (key : α) (n : Nat) :
    (keys.filter fun other => !other == key).take n =
      ((keys.take (n + 1)).filter fun other => !other == key).take n := by
  induction keys generalizing n with
  | nil => rfl
  | cons first rest ih =>
    obtain ⟨absent, distinct⟩ := List.nodup_cons.mp distinct
    rw [List.take_succ_cons]
    by_cases same : first = key
    · subst same
      have all : ∀ other ∈ rest, (!other == first) = true := by
        intro other member
        have : other ≠ first := fun same => absent (same ▸ member)
        simpa using this
      have taken : ∀ other ∈ rest.take n, (!other == first) = true :=
        fun other member => all other (List.mem_of_mem_take member)
      rw [List.filter_cons_of_neg (by simp), List.filter_cons_of_neg (by simp),
        List.filter_eq_self.mpr all, List.filter_eq_self.mpr taken, List.take_take, Nat.min_self]
    · rw [List.filter_cons_of_pos (by simpa using same),
        List.filter_cons_of_pos (by simpa using same)]
      cases n with
      | zero => rfl
      | succ n => rw [List.take_succ_cons, List.take_succ_cons, ih distinct]

/-- The key was used, and fewer than `n` others since its last use, when `keys` are the uses, the
last one first. -/
def UsedWithin (n : Nat) (key : α) (keys : List α) : Prop :=
  ∃ later earlier, keys = later ++ key :: earlier ∧ key ∉ later ∧ later.eraseDups.length < n

theorem eraseDups_append_cons {later : List α} {key : α} (absent : key ∉ later) (earlier : List α) :
    ∃ rest, (later ++ key :: earlier).eraseDups = later.eraseDups ++ key :: rest := by
  rw [List.eraseDups_append, List.removeAll, List.filter_cons_of_pos (by simpa using absent),
    List.eraseDups_cons]
  exact ⟨_, rfl⟩

theorem mem_take_eraseDups_iff {n : Nat} {key : α} {keys : List α} :
    key ∈ keys.eraseDups.take n ↔ UsedWithin n key keys := by
  constructor
  · intro member
    have used : key ∈ keys := List.mem_eraseDups.mp (List.mem_of_mem_take member)
    obtain ⟨later, earlier, rfl, absent⟩ := List.eq_append_cons_of_mem used
    refine ⟨later, earlier, rfl, absent, ?_⟩
    obtain ⟨rest, same⟩ := eraseDups_append_cons absent earlier
    -- Were there `n` later ones, they would be all that is taken.
    apply Nat.lt_of_not_le
    intro many
    rw [same, List.take_append_of_le_length many] at member
    exact absent (List.mem_eraseDups.mp (List.mem_of_mem_take member))
  · rintro ⟨later, earlier, rfl, absent, few⟩
    obtain ⟨rest, same⟩ := eraseDups_append_cons absent earlier
    obtain ⟨more, rfl⟩ := Nat.exists_eq_add_of_lt few
    rw [same, Nat.add_assoc, List.take_length_add_append]
    exact List.mem_append_right _ List.mem_cons_self

end Latest

namespace OutlineCache

def keys (cache : OutlineCache) : List (List PathPart) := cache.entries.map Prod.fst

def cached? (cache : OutlineCache) (path : FilePath) : Option Outline :=
  cache.entries.lookup (FilePath.parts path)

end OutlineCache

/-- A load that succeeded, with what the file held if it was read. -/
structure CacheLoad where
  key : List PathPart
  source : Option Text

inductive CacheStep where
  | load (path : FilePath)
  | clear
  | change (tree : FileTree)

structure CacheRun where
  cache : OutlineCache
  tree : FileTree
  /-- The loads that succeeded since the cache was cleared, the last one first. -/
  loads : List CacheLoad

namespace CacheRun

def start (capacity : Nat) (tree : FileTree) : CacheRun :=
  ⟨OutlineCache.ofCapacity capacity, tree, []⟩

def step (run : CacheRun) : CacheStep → CacheRun
  | .load path =>
    match run.cache.load run.tree path with
    | (.ok _, cache) =>
      let source := if (run.cache.cached? path).isSome then none else (run.tree.read path).toOption
      { run with cache, loads := ⟨FilePath.parts path, source⟩ :: run.loads }
    | (.error _, cache) => { run with cache }
  | .clear => { run with cache := run.cache.clear, loads := [] }
  | .change tree => { run with tree }

def after (run : CacheRun) (steps : List CacheStep) : CacheRun := steps.foldl step run

end CacheRun

/-- What the file held when it was last read for a load of this key. -/
def lastRead (key : List PathPart) (loads : List CacheLoad) : Option Text :=
  loads.findSome? fun load => if load.key = key then load.source else none

theorem lastRead_hit (key used : List PathPart) (loads : List CacheLoad) :
    lastRead key (⟨used, none⟩ :: loads) = lastRead key loads := by
  rw [lastRead, List.findSome?_cons]
  split
  · rename_i found
    split at found <;> contradiction
  · rfl

theorem lastRead_of_ne {key used : List PathPart} (other : used ≠ key) (source : Option Text)
    (loads : List CacheLoad) : lastRead key (⟨used, source⟩ :: loads) = lastRead key loads := by
  rw [lastRead, List.findSome?_cons, if_neg other]
  rfl

theorem lastRead_self (key : List PathPart) (source : Text) (loads : List CacheLoad) :
    lastRead key (⟨key, some source⟩ :: loads) = some source := by
  rw [lastRead, List.findSome?_cons, if_pos rfl]

namespace OutlineCache

variable {cache : OutlineCache} {path : FilePath}

theorem mem_entries_of_cached? {outline : Outline} (found : cache.cached? path = some outline) :
    (FilePath.parts path, outline) ∈ cache.entries := by
  obtain ⟨before, after, same, -⟩ := List.lookup_eq_some_iff.mp found
  rw [same]
  exact List.mem_append_right _ List.mem_cons_self

theorem mem_keys_iff :
    FilePath.parts path ∈ cache.keys ↔ ∃ outline, cache.cached? path = some outline := by
  constructor
  · intro member
    cases found : cache.cached? path with
    | some outline => exact ⟨outline, rfl⟩
    | none =>
      obtain ⟨entry, inside, same⟩ := List.mem_map.mp member
      have differ := List.lookup_eq_none_iff.mp found entry inside
      rw [same] at differ
      simp at differ
  · rintro ⟨outline, found⟩
    exact List.mem_map_of_mem (mem_entries_of_cached? found)

theorem load_of_cached {outline : Outline} (found : cache.cached? path = some outline)
    (tree : FileTree) :
    cache.load tree path = (.ok outline, cache.promote (FilePath.parts path) outline) := by
  rw [cached?] at found
  rw [load, found]

theorem load_of_read {tree : FileTree} {source : Text} (missing : cache.cached? path = none)
    (read : tree.read path = .ok source) :
    cache.load tree path = (.ok (Outline.ofSource source),
      cache.insert (FilePath.parts path) (Outline.ofSource source)) := by
  rw [cached?] at missing
  rw [load, missing, FileTree.readSource, read]
  rfl

theorem load_of_error {tree : FileTree} {cause : FileError} (missing : cache.cached? path = none)
    (read : tree.read path = .error cause) :
    cache.load tree path = (.error ⟨path, cause⟩, cache) := by
  rw [cached?] at missing
  rw [load, missing, FileTree.readSource, read]
  rfl

theorem load_error_keeps {tree : FileTree} {e : ReadError} {loaded : OutlineCache}
    (failed : cache.load tree path = (.error e, loaded)) : loaded = cache := by
  cases found : cache.cached? path with
  | some outline =>
    rw [load_of_cached found] at failed
    cases failed
  | none =>
    cases read : tree.read path with
    | ok source =>
      rw [load_of_read found read] at failed
      cases failed
    | error cause =>
      rw [load_of_error found read] at failed
      exact (Prod.ext_iff.mp failed).2.symm

theorem keys_promote (distinct : cache.keys.Nodup) (key : List PathPart) (outline : Outline) :
    (cache.promote key outline).keys = key :: cache.keys.filter fun other => !other == key := by
  have erased : cache.keys.erase key = (cache.entries.eraseP (·.1 == key)).map Prod.fst := by
    rw [List.erase_eq_eraseP', keys, List.eraseP_map]
    rfl
  rw [keys, promote, List.map_cons, ← erased, distinct.erase_eq_filter]
  rfl

end OutlineCache

namespace CacheRun

open OutlineCache

theorem step_load_cases (run : CacheRun) (path : FilePath) :
    (∃ outline, run.cache.cached? path = some outline ∧
        run.step (.load path) =
          { run with
            cache := run.cache.promote (FilePath.parts path) outline
            loads := ⟨FilePath.parts path, none⟩ :: run.loads }) ∨
      (∃ source, run.cache.cached? path = none ∧ run.tree.read path = .ok source ∧
        run.step (.load path) =
          { run with
            cache := run.cache.insert (FilePath.parts path) (Outline.ofSource source)
            loads := ⟨FilePath.parts path, some source⟩ :: run.loads }) ∨
      ∃ cause, run.cache.cached? path = none ∧ run.tree.read path = .error cause ∧
        run.step (.load path) = run := by
  cases found : run.cache.cached? path with
  | some outline =>
    refine Or.inl ⟨outline, rfl, ?_⟩
    simp only [step, load_of_cached found, found, Option.isSome_some, ↓reduceIte]
  | none =>
    cases read : run.tree.read path with
    | ok source =>
      refine Or.inr (Or.inl ⟨source, rfl, rfl, ?_⟩)
      simp only [step, load_of_read found read, found, read]
      rfl
    | error cause =>
      refine Or.inr (Or.inr ⟨cause, rfl, rfl, ?_⟩)
      simp only [step, load_of_error found read]

/-- The cache holds the outlines of the last `n` keys, each of what was read last for its key. -/
structure Exact (n : Nat) (run : CacheRun) : Prop where
  capacity : run.cache.capacity = n
  keys : run.cache.keys = (run.loads.map CacheLoad.key).eraseDups.take n
  outlines : ∀ entry ∈ run.cache.entries, ∃ source,
    lastRead entry.1 run.loads = some source ∧ entry.2 = Outline.ofSource source

theorem Exact.nodup {n : Nat} {run : CacheRun} (exact : Exact n run) : run.cache.keys.Nodup := by
  rw [exact.keys]
  exact (nodup_eraseDups _).sublist (List.take_sublist _ _)

theorem Exact.length_le {n : Nat} {run : CacheRun} (exact : Exact n run) :
    run.cache.keys.length ≤ n := by
  rw [exact.keys]
  exact List.length_take_le _ _

theorem Exact.take_used {n : Nat} {run : CacheRun} (exact : Exact (n + 1) run)
    (key : List PathPart) (source : Option Text) :
    (((⟨key, source⟩ :: run.loads).map CacheLoad.key).eraseDups.take (n + 1)) =
      key :: (run.cache.keys.filter fun other => !other == key).take n := by
  rw [List.map_cons, eraseDups_cons_filter, List.take_succ_cons,
    take_filter_ne (nodup_eraseDups _), ← exact.keys]

theorem Exact.hit {n : Nat} {run : CacheRun} (exact : Exact (n + 1) run) {path : FilePath}
    {outline : Outline} (found : run.cache.cached? path = some outline) :
    Exact (n + 1) { run with
      cache := run.cache.promote (FilePath.parts path) outline
      loads := ⟨FilePath.parts path, none⟩ :: run.loads } where
  capacity := exact.capacity
  keys := by
    -- The key leaves its old place, so that no other has to go.
    have inside : FilePath.parts path ∈ run.cache.keys := mem_keys_iff.mpr ⟨outline, found⟩
    have fits : (run.cache.keys.filter fun other => !other == FilePath.parts path).length ≤ n := by
      have shorter := List.length_erase_of_mem inside
      rw [exact.nodup.erase_eq_filter] at shorter
      have := exact.length_le
      change (run.cache.keys.filter (· != FilePath.parts path)).length ≤ n
      omega
    rw [exact.take_used, List.take_of_length_le fits]
    exact keys_promote exact.nodup _ _
  outlines := by
    intro entry member
    rw [lastRead_hit]
    rcases List.mem_cons.mp member with rfl | member
    · exact exact.outlines _ (mem_entries_of_cached? found)
    · exact exact.outlines entry (List.mem_of_mem_eraseP member)

theorem not_mem_keys {run : CacheRun} {path : FilePath} (missing : run.cache.cached? path = none) :
    FilePath.parts path ∉ run.cache.keys := by
  intro member
  obtain ⟨outline, found⟩ := mem_keys_iff.mp member
  rw [missing] at found
  contradiction

theorem Exact.miss {n : Nat} {run : CacheRun} (exact : Exact (n + 1) run) {path : FilePath}
    (missing : run.cache.cached? path = none) (source : Text) :
    Exact (n + 1) { run with
      cache := run.cache.insert (FilePath.parts path) (Outline.ofSource source)
      loads := ⟨FilePath.parts path, some source⟩ :: run.loads } where
  capacity := exact.capacity
  keys := by
    have absent := not_mem_keys missing
    have kept : ∀ other ∈ run.cache.keys, (!other == FilePath.parts path) = true := by
      intro other member
      have : other ≠ FilePath.parts path := fun same => absent (same ▸ member)
      simpa using this
    rw [exact.take_used, List.filter_eq_self.mpr kept]
    simp only [OutlineCache.keys, OutlineCache.insert, exact.capacity, Nat.add_sub_cancel,
      List.map_cons, List.map_take]
  outlines := by
    intro entry member
    rcases List.mem_cons.mp member with rfl | member
    · exact ⟨source, lastRead_self _ _ _, rfl⟩
    · have inside := List.mem_of_mem_take member
      have other : FilePath.parts path ≠ entry.1 := by
        intro same
        exact not_mem_keys missing (same ▸ List.mem_map_of_mem inside)
      rw [lastRead_of_ne other]
      exact exact.outlines entry inside

theorem Exact.step {n : Nat} {run : CacheRun} (exact : Exact (n + 1) run) (step : CacheStep) :
    Exact (n + 1) (run.step step) := by
  cases step with
  | load path =>
    rcases step_load_cases run path with
      ⟨outline, found, same⟩ | ⟨source, missing, -, same⟩ | ⟨-, -, -, same⟩ <;> rw [same]
    · exact exact.hit found
    · exact exact.miss missing source
    · exact exact
  | clear => exact ⟨exact.capacity, rfl, by rintro _ ⟨⟩⟩
  | change tree => exact ⟨exact.capacity, exact.keys, exact.outlines⟩

theorem exact_start (capacity : Nat) (tree : FileTree) :
    Exact (max capacity 1) (start capacity tree) where
  capacity := rfl
  keys := by
    rw [start]
    exact List.take_nil.symm
  outlines := by rintro _ ⟨⟩

theorem Exact.after {n : Nat} {run : CacheRun} (exact : Exact (n + 1) run)
    (steps : List CacheStep) : Exact (n + 1) (run.after steps) := by
  induction steps generalizing run with
  | nil => exact exact
  | cons step steps ih => exact ih (exact.step step)

theorem exact_after (capacity : Nat) (tree : FileTree) (steps : List CacheStep) :
    Exact (max capacity 1) ((start capacity tree).after steps) := by
  have initial := exact_start capacity tree
  obtain ⟨n, room⟩ : ∃ n, max capacity 1 = n + 1 := ⟨max capacity 1 - 1, by omega⟩
  rw [room] at initial ⊢
  exact initial.after steps

theorem Exact.isSome_cached?_iff {n : Nat} {run : CacheRun} (exact : Exact n run)
    (path : FilePath) :
    (∃ outline, run.cache.cached? path = some outline) ↔
      UsedWithin n (FilePath.parts path) (run.loads.map CacheLoad.key) := by
  rw [← mem_keys_iff, exact.keys, mem_take_eraseDups_iff]

theorem read_noFiles (path : FilePath) : ∃ cause, (FileTree.mk [] []).read path = .error cause := by
  rw [FileTree.read]
  cases (FileTree.mk [] []).locate path with
  | error cause => exact ⟨cause, rfl⟩
  | ok location =>
    cases location with
    | nil => exact ⟨.isDirectory, rfl⟩
    | cons name rest => exact ⟨.notFound, rfl⟩

/-- A load needs no file just if the outline is in the cache: without files all others fail. -/
theorem load_without_files_iff {cache loaded : OutlineCache} {path : FilePath} {outline : Outline} :
    (∀ files, cache.load files path = (.ok outline, loaded)) ↔
      cache.cached? path = some outline ∧
        loaded = cache.promote (FilePath.parts path) outline := by
  constructor
  · intro answers
    cases found : cache.cached? path with
    | some outline =>
      have same := answers ⟨[], []⟩
      rw [load_of_cached found] at same
      cases same
      exact ⟨rfl, rfl⟩
    | none =>
      obtain ⟨cause, read⟩ := read_noFiles path
      have same := answers ⟨[], []⟩
      rw [load_of_error found read] at same
      cases same
  · rintro ⟨found, rfl⟩ files
    exact load_of_cached found files

theorem load_error_iff {cache : OutlineCache} {tree : FileTree} {path : FilePath} :
    (∃ e, (cache.load tree path).1 = .error e) ↔
      (¬ ∃ outline, cache.cached? path = some outline) ∧
        ∃ cause, tree.read path = .error cause := by
  cases found : cache.cached? path with
  | some outline =>
    rw [load_of_cached found]
    simp
  | none =>
    cases read : tree.read path with
    | ok source =>
      rw [load_of_read found read]
      simp
    | error cause =>
      rw [load_of_error found read]
      simp

/-- At any point of a run the cache holds the paths that were loaded last since it was cleared, as
many as it has room for, the last one first. It answers a load of those and of no others without the
file, by the outline of what was read for the path last; a load of another path fails if its file
cannot be read, and then everything stays as it was. -/
theorem load_in_run (capacity : Nat) (tree : FileTree) (steps : List CacheStep) (path : FilePath) :
    let run := (start capacity tree).after steps
    let room := max capacity 1
    let recent := UsedWithin room (FilePath.parts path) (run.loads.map CacheLoad.key)
    run.cache.keys.Nodup ∧ run.cache.size ≤ room ∧
      run.cache.keys = (run.loads.map CacheLoad.key).eraseDups.take room ∧
      ((∃ outline loaded, ∀ files, run.cache.load files path = (.ok outline, loaded)) ↔ recent) ∧
      (∀ outline loaded, (∀ files, run.cache.load files path = (.ok outline, loaded)) →
        ∃ source, lastRead (FilePath.parts path) run.loads = some source ∧
          outline = Outline.ofSource source) ∧
      ((∃ e, (run.cache.load run.tree path).1 = .error e) ↔
        ¬ recent ∧ ∃ cause, run.tree.read path = .error cause) ∧
      ∀ e loaded, run.cache.load run.tree path = (.error e, loaded) →
        loaded = run.cache ∧ run.step (.load path) = run := by
  intro run room recent
  have exact : Exact room run := exact_after capacity tree steps
  have known : (∃ outline, run.cache.cached? path = some outline) ↔ recent :=
    exact.isSome_cached?_iff path
  refine ⟨exact.nodup, ?_, exact.keys, ?_, ?_, ?_, ?_⟩
  · have bound := exact.length_le
    rwa [keys, List.length_map] at bound
  · rw [← known]
    constructor
    · rintro ⟨outline, loaded, answers⟩
      exact ⟨outline, (load_without_files_iff.mp answers).1⟩
    · rintro ⟨outline, found⟩
      exact ⟨outline, _, load_without_files_iff.mpr ⟨found, rfl⟩⟩
  · intro outline loaded answers
    exact exact.outlines _ (mem_entries_of_cached? (load_without_files_iff.mp answers).1)
  · rw [load_error_iff, known]
  · intro e loaded failed
    have same : loaded = run.cache := load_error_keeps failed
    exact ⟨same, by rw [step, failed, same]⟩

def sampleFiles : FileTree where
  nodes := [(["a.py"], .file (encodeText "x = 1\n")), (["b.py"], .file (encodeText "y = 2\n"))]
  workingDirectory := []

def sampleSteps : List CacheStep := [.load "a.py", .load "b.py", .change ⟨[], []⟩]

theorem load_in_sampleRun :
    let run := (start 0 sampleFiles).after sampleSteps
    (∃ loaded, ∀ files, run.cache.load files "b.py" = (.ok (Outline.ofSource "y = 2\n"), loaded)) ∧
      ∃ e, run.cache.load run.tree "a.py" = (.error e, run.cache) ∧
        run.step (.load "a.py") = run := by
  intro run
  have used : run.loads.map CacheLoad.key = [FilePath.parts "b.py", FilePath.parts "a.py"] := by
    decide +kernel
  have read : lastRead (FilePath.parts "b.py") run.loads = some "y = 2\n" := by decide +kernel
  obtain ⟨-, -, -, known, content, -, -⟩ := load_in_run 0 sampleFiles sampleSteps "b.py"
  obtain ⟨-, -, -, -, -, fails, trace⟩ := load_in_run 0 sampleFiles sampleSteps "a.py"
  refine ⟨?_, ?_⟩
  · obtain ⟨outline, loaded, answers⟩ := known.mpr ⟨[], _, used, List.not_mem_nil, by decide⟩
    obtain ⟨source, last, same⟩ := content outline loaded answers
    rw [read] at last
    cases last
    rw [same] at answers
    exact ⟨loaded, answers⟩
  · have lost : ¬ UsedWithin 1 (FilePath.parts "a.py") (run.loads.map CacheLoad.key) := by
      rw [← mem_take_eraseDups_iff, used]
      decide +kernel
    obtain ⟨e, failed⟩ := fails.mpr ⟨lost, .notFound, rfl⟩
    obtain ⟨same, still⟩ := trace e _ (Prod.ext failed rfl)
    exact ⟨e, Prod.ext failed same, still⟩

end CacheRun

end DocMarkup
