import Mathlib.Data.List.Forall2
import DocMarkup.Proofs.Parser.Agreement
import DocMarkup.Proofs.Section.Registration

namespace DocMarkup

theorem lookup_eq_some_iff_mem {α : Type} {entries : List (Text × α)}
    (distinct : (entries.map Prod.fst).Nodup) {key : Text} {value : α} :
    entries.lookup key = some value ↔ (key, value) ∈ entries := by
  rw [List.lookup_eq_some_iff]
  constructor
  · rintro ⟨before, after, rfl, -⟩
    exact List.mem_append_right _ List.mem_cons_self
  · intro member
    obtain ⟨before, after, rfl⟩ := List.append_of_mem member
    rw [List.map_append, List.map_cons, List.nodup_append] at distinct
    refine ⟨before, after, rfl, fun entry earlier => bne_iff_ne.mpr fun same => ?_⟩
    exact distinct.2.2 _ (List.mem_map_of_mem earlier) key List.mem_cons_self same.symm

namespace Registry

variable {registry : Registry}

theorem Free.perm {keywords keywords' : List Text} (free : Free registry keywords)
    (perm : keywords.Perm keywords') : Free registry keywords' where
  content keyword member := free.content keyword (perm.mem_iff.mpr member)
  distinct := (perm.map keyOf).nodup_iff.mp free.distinct
  new keyword member := free.new keyword (perm.mem_iff.mpr member)

theorem Refuses.not_free_append {before keywords more : List Text} {keyword : Text}
    {e : RegistryError} (refuses : Refuses registry before keyword e)
    (same : ∃ after, keywords = before ++ keyword :: after) :
    ¬ Free registry (keywords ++ more) := by
  obtain ⟨after, rfl⟩ := same
  rw [List.append_assoc, List.cons_append]
  exact refuses.not_free

/-- Behind a registration just those keywords are free that were free together with the registered
ones. -/
theorem free_append_iff {next : Registry} {keywords more : List Text} {strategy : Strategy}
    (registered : registry.register keywords strategy = (.ok (), next)) :
    Free registry (keywords ++ more) ↔ Free next more := by
  have registeredFree := (free_of_register registered).1
  have known (key : Text) : next.hasKey key = false ↔
      key ∉ keywords.map keyOf ∧ registry.hasKey key = false := by
    rw [hasKey, lookup_of_register registered, hasKey]
    split <;> rename_i member <;> simp [member]
  constructor
  · intro free
    have distinct := free.distinct
    rw [List.map_append, List.nodup_append] at distinct
    refine ⟨fun keyword member => free.content keyword (List.mem_append_right _ member),
      distinct.2.1, fun keyword member => (known _).mpr ⟨fun inside => ?_, ?_⟩⟩
    · exact distinct.2.2 _ inside _ (List.mem_map_of_mem member) rfl
    · exact free.new keyword (List.mem_append_right _ member)
  · intro free
    refine ⟨fun keyword member => ?_, ?_, fun keyword member => ?_⟩
    · rcases List.mem_append.mp member with member | member
      · exact registeredFree.content keyword member
      · exact free.content keyword member
    · rw [List.map_append, List.nodup_append]
      refine ⟨registeredFree.distinct, free.distinct, ?_⟩
      rintro key inside _ later rfl
      obtain ⟨keyword, member, rfl⟩ := List.mem_map.mp later
      exact ((known _).mp (free.new keyword member)).1 inside
    · rcases List.mem_append.mp member with member | member
      · exact registeredFree.new keyword member
      · exact ((known _).mp (free.new keyword member)).2

theorem agrees_of_perm {registry' : Registry} (distinct : (registry.entries.map Prod.fst).Nodup)
    (perm : registry.entries.Perm registry'.entries) : registry.Agrees registry' := by
  have distinct' := (perm.map Prod.fst).nodup_iff.mp distinct
  intro keyword
  refine Option.ext fun strategy => ?_
  rw [get?, lookup_eq_some_iff_mem distinct, get?, lookup_eq_some_iff_mem distinct', perm.mem_iff]

end Registry

namespace SectionSpec

def entries (spec : SectionSpec) : List (Text × Strategy) :=
  Registry.entriesFor (spec.keywords.map Registry.keyOf) spec.strategy

/-- The same section with its keywords in any order. -/
def Reorders (spec spec' : SectionSpec) : Prop :=
  spec.strategy = spec'.strategy ∧ spec.keywords.Perm spec'.keywords

theorem Reorders.entries_perm {spec spec' : SectionSpec} (reorders : spec.Reorders spec') :
    spec.entries.Perm spec'.entries := by
  rw [entries, reorders.1]
  exact (reorders.2.map Registry.keyOf).map _

/-- Sections are registered one after the other if all their keywords are free together, and then
the entries of all of them are added. -/
theorem registerAll_cases (registry : Registry) (specs : List SectionSpec) :
    (∃ final, registerAll specs registry = (.ok (), final) ∧
        Registry.Free registry (specs.flatMap keywords) ∧
        final.entries = registry.entries ++ specs.flatMap entries ∧
        ((registry.entries.map Prod.fst).Nodup → (final.entries.map Prod.fst).Nodup)) ∨
      ∃ e final, registerAll specs registry = (.error e, final) ∧
        ¬ Registry.Free registry (specs.flatMap keywords) := by
  induction specs generalizing registry with
  | nil => exact Or.inl ⟨registry, rfl, Registry.free_nil registry, by simp, id⟩
  | cons spec specs ih =>
    rw [registerAll, List.flatMap_cons]
    rcases Registry.register_cases registry spec.keywords spec.strategy with
      ⟨next, registered, -, added⟩ | ⟨e, before, keyword, after, refused, same, -, refuses⟩
    · have step : spec.register registry = (.ok (), next) := registered
      rw [step, Registry.free_append_iff registered]
      rcases ih next with ⟨final, run, free, entries, distinct⟩ | ⟨e, final, run, taken⟩
      · refine Or.inl ⟨final, run, free, ?_, fun nodup => ?_⟩
        · rw [entries, added, List.append_assoc, List.flatMap_cons]
          rfl
        · exact distinct (Registry.nodup_of_register registered nodup)
      · exact Or.inr ⟨e, final, run, taken⟩
    · have step : spec.register registry = (.error e, registry) := refused
      rw [step]
      exact Or.inr ⟨e, registry, rfl, refuses.not_free_append ⟨after, same⟩⟩

end SectionSpec

namespace DocstringConfig

def keywords (config : DocstringConfig) : List Text := config.sections.flatMap SectionSpec.keywords

/-- The same settings with the sections in any order, and the keywords in each of them. -/
def Reorders (config config' : DocstringConfig) : Prop :=
  ∃ sections, config.sections.Perm sections ∧
    List.Forall₂ SectionSpec.Reorders sections config'.sections ∧
    config' = { config with sections := config'.sections }

theorem Reorders.flatMap_perm {config config' : DocstringConfig}
    (reorders : config.Reorders config') {α : Type} {f : SectionSpec → List α}
    (kept : ∀ spec spec' : SectionSpec, spec.Reorders spec' → (f spec).Perm (f spec')) :
    (config.sections.flatMap f).Perm (config'.sections.flatMap f) := by
  obtain ⟨sections, perm, each, -⟩ := reorders
  have eachPerm : (sections.flatMap f).Perm (config'.sections.flatMap f) := by
    clear perm
    generalize config'.sections = sections' at each ⊢
    induction each with
    | nil => exact List.Perm.refl _
    | cons first _ ih => exact (kept _ _ first).append ih
  exact (perm.flatMap_right f).trans eachPerm

theorem nodup_baseRegistry (config : DocstringConfig) :
    (config.baseRegistry.entries.map Prod.fst).Nodup := by
  apply Registry.nodup_keys_base
  rw [baseRegistry]
  split <;> simp

theorem registry_cases (config : DocstringConfig) :
    (∃ registry, config.registry = .ok registry ∧
        Registry.Free config.baseRegistry config.keywords ∧
        registry.entries =
          config.baseRegistry.entries ++ config.sections.flatMap SectionSpec.entries ∧
        (registry.entries.map Prod.fst).Nodup) ∨
      ∃ e, config.registry = .error e ∧
        ¬ Registry.Free config.baseRegistry config.keywords := by
  rw [registry]
  rcases SectionSpec.registerAll_cases config.baseRegistry config.sections with
    ⟨registry, run, free, entries, distinct⟩ | ⟨e, final, run, taken⟩
  · rw [run]
    exact Or.inl ⟨registry, rfl, free, entries, distinct config.nodup_baseRegistry⟩
  · rw [run]
    exact Or.inr ⟨e, rfl, taken⟩

theorem Reorders.registry {config config' : DocstringConfig} (reorders : config.Reorders config') :
    (∃ e e', config.registry = .error e ∧ config'.registry = .error e') ∨
      ∃ registry registry', config.registry = .ok registry ∧
        config'.registry = .ok registry' ∧ registry.Agrees registry' := by
  have base : config'.baseRegistry = config.baseRegistry := by
    obtain ⟨-, -, -, same⟩ := reorders
    rw [same]
    rfl
  have keywords : config.keywords.Perm config'.keywords :=
    reorders.flatMap_perm fun _ _ reorders => reorders.2
  have entries := reorders.flatMap_perm fun _ _ reorders => reorders.entries_perm
  rcases config.registry_cases with
    ⟨registry, built, free, added, distinct⟩ | ⟨e, failed, taken⟩
  · rcases config'.registry_cases with ⟨registry', built', -, added', -⟩ | ⟨e', -, taken'⟩
    · refine Or.inr ⟨registry, registry', built, built', Registry.agrees_of_perm distinct ?_⟩
      rw [added, added', base]
      exact entries.append_left _
    · rw [base] at taken'
      exact absurd (free.perm keywords) taken'
  · rcases config'.registry_cases with ⟨registry', -, free', -⟩ | ⟨e', failed', -⟩
    · rw [base] at free'
      exact absurd (free'.perm keywords.symm) taken
    · exact Or.inl ⟨e, e', failed, failed'⟩

end DocstringConfig

namespace Parser

/-- A parser can be built just if the keywords of all sections together have content, differ from
one another and are new. So configurations that differ in the order of their sections, or of the
keywords inside a section, fail together or write every docstring the same. -/
theorem ofConfig_reorders {config config' : DocstringConfig} (reorders : config.Reorders config') :
    ((∃ parser, ofConfig config = .ok parser) ↔
        Registry.Free config.baseRegistry config.keywords) ∧
      ((∃ e e', ofConfig config = .error e ∧ ofConfig config' = .error e') ∨
        ∃ parser parser', ofConfig config = .ok parser ∧ ofConfig config' = .ok parser' ∧
          ∀ lines, parser.parseLines lines = parser'.parseLines lines) := by
  constructor
  · rcases config.registry_cases with ⟨registry, built, free, -⟩ | ⟨e, failed, taken⟩
    · simp only [ofConfig, built, free, iff_true]
      exact ⟨_, rfl⟩
    · simp only [ofConfig, failed, taken, iff_false]
      rintro ⟨parser, built⟩
      cases built
  · rcases reorders.registry with
      ⟨e, e', failed, failed'⟩ | ⟨registry, registry', built, built', agrees⟩
    · exact Or.inl ⟨e, e', by rw [ofConfig, failed]; rfl, by rw [ofConfig, failed']; rfl⟩
    · refine Or.inr ⟨_, _, by rw [ofConfig, built]; rfl, by rw [ofConfig, built']; rfl, ?_⟩
      obtain ⟨-, -, -, same⟩ := reorders
      rw [same]
      exact parseLines_agrees agrees

def sampleSections : DocstringConfig :=
  { sections := [
      .fields ["Side Effects", " Effects"] "Side Effects",
      .returns ["Emits"] "Emits" true] }

def sampleReordered : DocstringConfig :=
  { sections := [
      .returns ["Emits"] "Emits" true,
      .fields [" Effects", "Side Effects"] "Side Effects"] }

theorem ofConfig_sampleSections :
    sampleSections.Reorders sampleReordered ∧
      Registry.Free sampleSections.baseRegistry sampleSections.keywords ∧
      ∃ parser parser', ofConfig sampleSections = .ok parser ∧
        ofConfig sampleReordered = .ok parser' ∧
        ∀ lines, parser.parseLines lines = parser'.parseLines lines := by
  have swapped : SectionSpec.Reorders (.fields ["Side Effects", " Effects"] "Side Effects")
      (.fields [" Effects", "Side Effects"] "Side Effects") := ⟨rfl, List.Perm.swap _ _ _⟩
  have reorders : sampleSections.Reorders sampleReordered :=
    ⟨_, List.Perm.swap _ _ _, .cons ⟨rfl, List.Perm.refl _⟩ (.cons swapped .nil), rfl⟩
  have free : Registry.Free sampleSections.baseRegistry sampleSections.keywords :=
    ⟨by decide +kernel, by decide +kernel, by decide +kernel⟩
  obtain ⟨builds, failed | built⟩ := ofConfig_reorders reorders
  · obtain ⟨parser, built⟩ := builds.mpr free
    obtain ⟨e, -, failed, -⟩ := failed
    rw [built] at failed
    cases failed
  · exact ⟨reorders, free, built⟩

end Parser

end DocMarkup
