import DocMarkup.Config.Basic
import DocMarkup.Proofs.Text.LowerCase

namespace DocMarkup

namespace Registry

variable {registry : Registry}

/-- The keywords can be registered together: they have content, and their keys are new and differ
from one another. -/
structure Free (registry : Registry) (keywords : List Text) : Prop where
  content : ∀ keyword ∈ keywords, keyword.trim ≠ []
  distinct : (keywords.map keyOf).Nodup
  new : ∀ keyword ∈ keywords, registry.hasKey (keyOf keyword) = false

/-- What is wrong with a keyword behind the keywords `before` of the same call. -/
inductive Refuses (registry : Registry) (before : List Text) (keyword : Text) :
    RegistryError → Prop
  | empty (blank : keyword.trim = []) : Refuses registry before keyword .emptyKeyword
  | known (content : keyword.trim ≠ []) (known : registry.hasKey (keyOf keyword) = true) :
    Refuses registry before keyword (.duplicate (keyOf keyword))
  | repeated (content : keyword.trim ≠ []) (repeated : keyOf keyword ∈ before.map keyOf) :
    Refuses registry before keyword (.duplicate (keyOf keyword))

theorem keyOf_eq_nil_iff {keyword : Text} : keyOf keyword = [] ↔ keyword.trim = [] :=
  Text.lowerCase_eq_nil_iff

theorem free_nil (registry : Registry) : Free registry [] := ⟨by simp, List.nodup_nil, by simp⟩

theorem Free.concat {before : List Text} {keyword : Text} (free : Free registry before)
    (content : keyword.trim ≠ []) (unknown : registry.hasKey (keyOf keyword) = false)
    (absent : keyOf keyword ∉ before.map keyOf) : Free registry (before ++ [keyword]) where
  content other member := by
    rcases List.mem_append.mp member with member | member
    · exact free.content other member
    · rwa [List.mem_singleton.mp member]
  distinct := by
    rw [List.map_append, List.map_singleton, List.nodup_append]
    refine ⟨free.distinct, by simp, ?_⟩
    rintro a inside b last rfl
    rw [List.mem_singleton.mp last] at inside
    exact absent inside
  new other member := by
    rcases List.mem_append.mp member with member | member
    · exact free.new other member
    · rwa [List.mem_singleton.mp member]

theorem Refuses.not_free {before after : List Text} {keyword : Text} {e : RegistryError}
    (refuses : Refuses registry before keyword e) :
    ¬ Free registry (before ++ keyword :: after) := by
  intro free
  have member : keyword ∈ before ++ keyword :: after := by simp
  cases refuses with
  | empty blank => exact free.content keyword member blank
  | known _ known =>
    rw [free.new keyword member] at known
    contradiction
  | repeated _ repeated =>
    have distinct := free.distinct
    rw [List.map_append, List.nodup_append] at distinct
    exact distinct.2.2 _ repeated _ (by simp) rfl

theorem newKeys_cases {before taken : List Text} (free : Free registry before)
    (same : ∀ key, key ∈ taken ↔ key ∈ before.map keyOf) (keywords : List Text) :
    (registry.newKeys taken keywords = .ok (keywords.map keyOf) ∧
        Free registry (before ++ keywords)) ∨
      ∃ e more keyword after, registry.newKeys taken keywords = .error e ∧
        keywords = more ++ keyword :: after ∧ Free registry (before ++ more) ∧
        Refuses registry (before ++ more) keyword e := by
  -- What the call has passed grows along the list: `before` by the keyword, `taken` by its key.
  induction keywords generalizing before taken with
  | nil => exact Or.inl ⟨rfl, by rwa [List.append_nil]⟩
  | cons keyword rest ih =>
    rw [newKeys]
    by_cases blank : keyword.trim = []
    · refine Or.inr ⟨_, [], keyword, rest, if_pos ?_, rfl, by rwa [List.append_nil], .empty blank⟩
      rw [keyOf_eq_nil_iff.mpr blank]
      rfl
    · have nonempty : (keyOf keyword).isEmpty = false :=
        List.isEmpty_eq_false_iff.mpr fun empty => blank (keyOf_eq_nil_iff.mp empty)
      simp only [nonempty, Bool.false_eq_true, ↓reduceIte]
      by_cases clash : registry.hasKey (keyOf keyword) = true ∨ keyOf keyword ∈ before.map keyOf
      · have refused : (registry.hasKey (keyOf keyword) || taken.contains (keyOf keyword)) = true := by
          rwa [Bool.or_eq_true, List.contains_iff_mem, same]
        refine Or.inr ⟨_, [], keyword, rest, if_pos refused, rfl, by rwa [List.append_nil], ?_⟩
        rw [List.append_nil]
        rcases clash with known | repeated
        · exact .known blank known
        · exact .repeated blank repeated
      · obtain ⟨unknown, absent⟩ := not_or.mp clash
        rw [Bool.not_eq_true] at unknown
        have accepted : (registry.hasKey (keyOf keyword) || taken.contains (keyOf keyword)) = false := by
          rw [unknown, Bool.false_or, Bool.eq_false_iff, Ne, List.contains_iff_mem, same]
          exact absent
        simp only [accepted, Bool.false_eq_true, ↓reduceIte]
        have grown : ∀ key, key ∈ keyOf keyword :: taken ↔ key ∈ (before ++ [keyword]).map keyOf := by
          intro key
          rw [List.mem_cons, same, List.map_append, List.mem_append, List.map_singleton,
            List.mem_singleton, or_comm]
        rcases ih (free.concat blank unknown absent) grown with
          ⟨found, all⟩ | ⟨e, more, other, after, found, rfl, all, refuses⟩
        · refine Or.inl ⟨by rw [found]; rfl, ?_⟩
          rwa [List.append_assoc] at all
        · rw [List.append_assoc] at all refuses
          exact Or.inr ⟨e, keyword :: more, other, after, by rw [found]; rfl, rfl, all, refuses⟩

theorem lookup_entriesFor (keys : List Text) (strategy : Strategy) (key : Text) :
    (entriesFor keys strategy).lookup key = if key ∈ keys then some strategy else none := by
  induction keys with
  | nil => rfl
  | cons first keys ih =>
    rw [entriesFor, List.map_cons, List.lookup_cons, ← entriesFor, ih]
    by_cases same : key = first
    · simp [same]
    · rw [beq_eq_false_iff_ne.mpr same]
      simp [same]

theorem map_fst_entriesFor (keys : List Text) (strategy : Strategy) :
    (entriesFor keys strategy).map Prod.fst = keys := by
  induction keys with
  | nil => rfl
  | cons first keys ih =>
    rw [entriesFor, List.map_cons, List.map_cons, ← entriesFor, ih]

/-- A registration succeeds with free keywords, which it adds behind all others, or it fails at the
first keyword that is refused and adds nothing. -/
theorem register_cases (registry : Registry) (keywords : List Text) (strategy : Strategy) :
    (∃ next, registry.register keywords strategy = (.ok (), next) ∧ Free registry keywords ∧
        next.entries = registry.entries ++ entriesFor (keywords.map keyOf) strategy) ∨
      ∃ e before keyword after, registry.register keywords strategy = (.error e, registry) ∧
        keywords = before ++ keyword :: after ∧ Free registry before ∧
        Refuses registry before keyword e := by
  unfold register
  have nothing : ∀ key, key ∈ ([] : List Text) ↔ key ∈ List.map keyOf [] := by simp
  rcases newKeys_cases (free_nil registry) nothing keywords with
    ⟨found, free⟩ | ⟨e, before, keyword, after, found, same, free, refuses⟩
  · left
    split
    · rename_i claimed
      rw [found] at claimed
      contradiction
    · rename_i keys claimed
      rw [found] at claimed
      cases claimed
      exact ⟨_, rfl, free, rfl⟩
  · right
    split
    · rename_i claimed
      rw [found] at claimed
      cases claimed
      exact ⟨e, before, keyword, after, rfl, same, free, refuses⟩
    · rename_i claimed
      rw [found] at claimed
      contradiction

theorem register_of_free {keywords : List Text} (free : Free registry keywords)
    (strategy : Strategy) : ∃ next, registry.register keywords strategy = (.ok (), next) := by
  rcases register_cases registry keywords strategy with
    ⟨next, registered, -⟩ | ⟨e, before, keyword, after, -, rfl, -, refuses⟩
  · exact ⟨next, registered⟩
  · exact absurd free refuses.not_free

theorem refuses_of_register_error {next : Registry} {keywords : List Text} {strategy : Strategy}
    {e : RegistryError} (failed : registry.register keywords strategy = (.error e, next)) :
    next = registry ∧ ∃ before keyword after, keywords = before ++ keyword :: after ∧
      Free registry before ∧ Refuses registry before keyword e := by
  rcases register_cases registry keywords strategy with
    ⟨_, registered, -⟩ | ⟨e', before, keyword, after, found, rest⟩
  · rw [registered] at failed
    cases failed
  · rw [found] at failed
    cases failed
    exact ⟨rfl, before, keyword, after, rest⟩

section Registered

variable {next : Registry} {keywords : List Text} {strategy : Strategy}
  (registered : registry.register keywords strategy = (.ok (), next))

include registered

theorem free_of_register : Free registry keywords ∧
    next.entries = registry.entries ++ entriesFor (keywords.map keyOf) strategy := by
  rcases register_cases registry keywords strategy with
    ⟨other, same, free, entries⟩ | ⟨e, _, _, _, same, -⟩
  · rw [registered] at same
    cases same
    exact ⟨free, entries⟩
  · rw [registered] at same
    cases same

theorem lookup_of_register (key : Text) :
    next.entries.lookup key =
      if key ∈ keywords.map keyOf then some strategy else registry.entries.lookup key := by
  obtain ⟨free, entries⟩ := free_of_register registered
  rw [entries, List.lookup_append, lookup_entriesFor]
  split
  · rename_i member
    obtain ⟨keyword, inside, rfl⟩ := List.mem_map.mp member
    have new := free.new keyword inside
    rw [hasKey, Option.isSome_eq_false_iff, Option.isNone_iff_eq_none] at new
    rw [new, Option.none_or]
  · rw [Option.or_none]

theorem lookup_eq_some_of_register {key : Text} {kept : Strategy}
    (known : registry.entries.lookup key = some kept) : next.entries.lookup key = some kept := by
  obtain ⟨-, entries⟩ := free_of_register registered
  rw [entries, List.lookup_append, known, Option.some_or]

theorem nodup_of_register (distinct : (registry.entries.map Prod.fst).Nodup) :
    (next.entries.map Prod.fst).Nodup := by
  obtain ⟨free, entries⟩ := free_of_register registered
  rw [entries, List.map_append, map_fst_entriesFor, List.nodup_append]
  refine ⟨distinct, free.distinct, ?_⟩
  rintro key old _ added rfl
  obtain ⟨keyword, inside, rfl⟩ := List.mem_map.mp added
  obtain ⟨entry, member, same⟩ := List.mem_map.mp old
  have absent := List.lookup_eq_none_iff.mp
    (Option.isNone_iff_eq_none.mp (Option.isSome_eq_false_iff.mp (free.new keyword inside)))
  have differ := absent entry member
  rw [same] at differ
  simp at differ

end Registered

def afterCall (registry : Registry) (call : SectionSpec) : Registry := (call.register registry).2

def afterCalls (registry : Registry) (calls : List SectionSpec) : Registry :=
  calls.foldl afterCall registry

theorem afterCalls_append (registry : Registry) (calls later : List SectionSpec) :
    registry.afterCalls (calls ++ later) = (registry.afterCalls calls).afterCalls later :=
  List.foldl_append

/-- What every successful call keeps is kept by a run. -/
theorem afterCalls_induction {P : Registry → Prop}
    (kept : ∀ (registry next : Registry) (call : SectionSpec),
      call.register registry = (.ok (), next) → P registry → P next)
    (holds : P registry) (calls : List SectionSpec) : P (registry.afterCalls calls) := by
  induction calls generalizing registry with
  | nil => exact holds
  | cons call calls ih =>
    have step : P (registry.afterCall call) := by
      unfold afterCall
      cases outcome : call.register registry with
      | mk result next =>
        cases result with
        | ok => exact kept registry next call outcome holds
        | error e => exact (refuses_of_register_error outcome).1 ▸ holds
    exact ih step

theorem lookup_afterCalls {key : Text} {strategy : Strategy}
    (known : registry.entries.lookup key = some strategy) (calls : List SectionSpec) :
    (registry.afterCalls calls).entries.lookup key = some strategy := by
  refine afterCalls_induction (P := fun registry => registry.entries.lookup key = some strategy)
    ?_ known calls
  intro registry next call registered known
  exact lookup_eq_some_of_register registered known

theorem nodup_afterCalls (distinct : (registry.entries.map Prod.fst).Nodup)
    (calls : List SectionSpec) : ((registry.afterCalls calls).entries.map Prod.fst).Nodup := by
  refine afterCalls_induction (P := fun registry => (registry.entries.map Prod.fst).Nodup)
    ?_ distinct calls
  intro registry next call registered distinct
  exact nodup_of_register registered distinct

theorem nodup_keys_base {start : Registry} (base : start ∈ [empty, google, extended]) :
    (start.entries.map Prod.fst).Nodup := by
  have google : (Registry.google.entries.map Prod.fst).Nodup := by decide +kernel
  have extended : (Registry.extended.entries.map Prod.fst).Nodup := by decide +kernel
  simp only [List.mem_cons, List.not_mem_nil, or_false] at base
  rcases base with rfl | rfl | rfl
  · exact List.nodup_nil
  · exact google
  · exact extended

/-- At any point of a run, a call succeeds just if its keywords are free, and then it adds their keys
and nothing else. A call that fails leaves no trace, and what is wrong is wrong with the first keyword
that is refused. Keys stay with their strategies, each stands once, and keywords are looked up in
lower case. -/
theorem call_in_run {start : Registry} (base : start ∈ [empty, google, extended])
    (calls later : List SectionSpec) (call : SectionSpec) :
    let registry := start.afterCalls calls
    ((∃ next, call.register registry = (.ok (), next)) ↔ Free registry call.keywords) ∧
      (∀ next, call.register registry = (.ok (), next) →
        start.afterCalls (calls ++ call :: later) = next.afterCalls later ∧
          ∀ key, next.entries.lookup key =
            if key ∈ call.keywords.map keyOf then some call.strategy
            else registry.entries.lookup key) ∧
      (∀ e next, call.register registry = (.error e, next) →
        next = registry ∧
          start.afterCalls (calls ++ call :: later) = registry.afterCalls later ∧
          ∃ before keyword after, call.keywords = before ++ keyword :: after ∧
            Free registry before ∧ Refuses registry before keyword e) ∧
      (∀ key strategy, registry.entries.lookup key = some strategy →
        (registry.afterCalls later).entries.lookup key = some strategy) ∧
      (∀ keyword, registry.get? keyword = registry.entries.lookup keyword.lowerCase ∧
        registry.get? keyword.lowerCase = registry.get? keyword) ∧
      (registry.entries.map Prod.fst).Nodup := by
  intro registry
  have after : start.afterCalls (calls ++ call :: later) =
      (registry.afterCall call).afterCalls later := afterCalls_append start calls (call :: later)
  refine ⟨⟨?_, fun free => register_of_free free call.strategy⟩, ?_, ?_, ?_, ?_,
    nodup_afterCalls (nodup_keys_base base) calls⟩
  · rintro ⟨next, registered⟩
    exact (free_of_register registered).1
  · intro next registered
    refine ⟨?_, lookup_of_register registered⟩
    rw [after, afterCall, registered]
  · intro e next failed
    obtain ⟨rfl, refused⟩ := refuses_of_register_error failed
    exact ⟨rfl, by rw [after, afterCall, failed], refused⟩
  · intro key strategy known
    exact lookup_afterCalls known later
  · intro keyword
    refine ⟨rfl, ?_⟩
    rw [get?, Text.lowerCase_lowerCase, get?]

def sampleFailure : SectionSpec := .rubric ["Side Effects", "Notes "]

def sampleSuccess : SectionSpec := .fields ["SIDE effects ", "Flags"] "Effects"

theorem call_in_sampleRun :
    google ∈ [empty, google, extended] ∧
      sampleFailure.register google = (.error (.duplicate "notes"), google) ∧
      google.afterCalls [sampleFailure, sampleSuccess] = google.afterCalls [sampleSuccess] ∧
      Free google sampleSuccess.keywords ∧
      (∃ next, sampleSuccess.register google = (.ok (), next) ∧
        google.afterCalls [sampleSuccess, sampleFailure] = next.afterCalls [sampleFailure] ∧
        next.entries.lookup ("flags" : Text) = some (.fields "Effects")) := by
  have base : google ∈ [empty, google, extended] := List.mem_cons_of_mem _ List.mem_cons_self
  have failed : sampleFailure.register google = (.error (.duplicate "notes"), google) := by rfl
  have free : Free google sampleSuccess.keywords :=
    ⟨by decide +kernel, by decide +kernel, by decide +kernel⟩
  obtain ⟨-, -, trace, -⟩ := call_in_run base [] [sampleSuccess] sampleFailure
  obtain ⟨succeeds, added, -⟩ := call_in_run base [] [sampleFailure] sampleSuccess
  obtain ⟨next, registered⟩ := succeeds.mpr free
  obtain ⟨after, stored⟩ := added next registered
  refine ⟨base, failed, (trace _ _ failed).2.1, free, next, registered, after, ?_⟩
  rw [stored]
  decide +kernel

end Registry

end DocMarkup
