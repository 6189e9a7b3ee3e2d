import DocMarkup.Members.Basic
import DocMarkup.Proofs.Config.Sections

namespace DocMarkup

namespace ExcludeTable

def IsListed (table : ExcludeTable) (kind name : Text) : Prop :=
  ∃ row ∈ table.rows, row.1 = kind ∧ name ∈ row.2

theorem excludes_iff {table : ExcludeTable} {kind name : Text} :
    table.excludes kind name = true ↔ table.IsListed kind name ∨ table.IsListed anyKind name := by
  simp only [excludes, List.any_eq_true, Bool.and_eq_true, Bool.or_eq_true, beq_iff_eq,
    List.contains_iff_mem]
  constructor
  · rintro ⟨row, member, own | any, inside⟩
    · exact Or.inl ⟨row, member, own, inside⟩
    · exact Or.inr ⟨row, member, any, inside⟩
  · rintro (⟨row, member, own, inside⟩ | ⟨row, member, any, inside⟩)
    · exact ⟨row, member, Or.inl own, inside⟩
    · exact ⟨row, member, Or.inr any, inside⟩

theorem isEmpty_iff {table : ExcludeTable} :
    table.isEmpty = true ↔ ∀ kind name, ¬ table.IsListed kind name := by
  simp only [isEmpty, List.all_eq_true, List.isEmpty_iff]
  constructor
  · rintro none kind name ⟨row, member, -, inside⟩
    rw [none row member] at inside
    exact List.not_mem_nil inside
  · intro none row member
    rw [List.eq_nil_iff_forall_not_mem]
    exact fun name inside => none row.1 name ⟨row, member, rfl, inside⟩

theorem isEmpty_iff_excludes {table : ExcludeTable} :
    table.isEmpty = true ↔ ∀ kind name, table.excludes kind name = false := by
  rw [isEmpty_iff]
  constructor
  · intro none kind name
    rw [← Bool.not_eq_true, excludes_iff, not_or]
    exact ⟨none kind name, none anyKind name⟩
  · intro none kind name listed
    have hidden := excludes_iff.mpr (Or.inl listed)
    rw [none kind name] at hidden
    cases hidden

theorem not_isListed_empty (kind name : Text) : ¬ empty.IsListed kind name := by
  rintro ⟨row, member, -⟩
  exact List.not_mem_nil member

theorem isListed_insert {table : ExcludeTable} {kind kind' name : Text} {names : List Text} :
    (table.insert kind names).IsListed kind' name ↔
      table.IsListed kind' name ∨ (kind' = kind ∧ name ∈ names) := by
  simp only [IsListed, insert, List.mem_append, List.mem_singleton]
  constructor
  · rintro ⟨row, before | rfl, same, inside⟩
    · exact Or.inl ⟨row, before, same, inside⟩
    · exact Or.inr ⟨same.symm, inside⟩
  · rintro (⟨row, before, same, inside⟩ | ⟨rfl, inside⟩)
    · exact ⟨row, Or.inl before, same, inside⟩
    · exact ⟨_, Or.inr rfl, rfl, inside⟩

def insertAll (table : ExcludeTable) (rows : NamesByKind) : ExcludeTable :=
  rows.foldl (fun table (kind, names) => table.insert kind names) table

theorem isListed_insertAll {table : ExcludeTable} {rows : NamesByKind} {kind name : Text} :
    (table.insertAll rows).IsListed kind name ↔
      table.IsListed kind name ∨ ∃ names, (kind, names) ∈ rows ∧ name ∈ names := by
  induction rows generalizing table with
  | nil => simp [insertAll]
  | cons row rows ih =>
    obtain ⟨kind', names'⟩ := row
    have step : table.insertAll ((kind', names') :: rows) =
        (table.insert kind' names').insertAll rows := rfl
    rw [step, ih, isListed_insert, or_assoc]
    refine or_congr_right ?_
    constructor
    · rintro (⟨rfl, inside⟩ | ⟨names, member, inside⟩)
      · exact ⟨names', List.mem_cons_self, inside⟩
      · exact ⟨names, List.mem_cons_of_mem _ member, inside⟩
    · rintro ⟨names, member, inside⟩
      rcases List.mem_cons.mp member with same | member
      · cases same
        exact Or.inl ⟨rfl, inside⟩
      · exact Or.inr ⟨names, member, inside⟩

abbrev NamesMap := Text → Option (List Text)

/-- The rows are the entries of the map, in any order. -/
inductive IsRowsOf : Option NamesByKind → Option NamesMap → Prop where
  | unset : IsRowsOf none none
  | set {rows : NamesByKind} {map : NamesMap} :
      (∀ kind names, (kind, names) ∈ rows ↔ map kind = some names) → IsRowsOf (some rows) (some map)

theorem isRowsOf_of_perm {rows rows' : NamesByKind} (distinct : (rows.map Prod.fst).Nodup)
    (perm : rows'.Perm rows) : IsRowsOf (some rows') (some fun kind => rows.lookup kind) :=
  .set fun _ _ => perm.mem_iff.trans (lookup_eq_some_iff_mem distinct).symm

def IsDefault (kind name : Text) : Prop := kind = anyKind ∧ name ∈ defaultNames

/-- The names in effect under a kind: the default ones if nothing is configured, and else those of
the map, with the default ones of the kind if they are asked for. -/
def InEffect (defaultsToo : Bool) (map : Option NamesMap) (kind name : Text) : Prop :=
  match map with
  | none => IsDefault kind name
  | some map => (∃ names ∈ map kind, name ∈ names) ∨ (defaultsToo = true ∧ IsDefault kind name)

theorem isListed_defaults {kind name : Text} :
    defaults.IsListed kind name ↔ IsDefault kind name := by
  rw [defaults, isListed_insert, or_iff_right (not_isListed_empty kind name), IsDefault]

theorem isListed_ofConfig {config : DocstringConfig} {map : Option NamesMap}
    (isRows : IsRowsOf config.autodocExcludes map) (kind name : Text) :
    (ofConfig config).IsListed kind name ↔
      InEffect config.autodocExcludeDefaults map kind name := by
  unfold ofConfig
  generalize config.autodocExcludes = configured at isRows
  cases isRows with
  | unset => exact isListed_defaults
  | @set rows map entries =>
    have merged : (if config.autodocExcludeDefaults then defaults else empty).IsListed kind name ↔
        config.autodocExcludeDefaults = true ∧ IsDefault kind name := by
      by_cases both : config.autodocExcludeDefaults = true
      · rw [if_pos both, isListed_defaults, and_iff_right both]
      · rw [if_neg both]
        exact iff_of_false (not_isListed_empty kind name) fun asked => both asked.1
    have own : (∃ names, (kind, names) ∈ rows ∧ name ∈ names) ↔ ∃ names ∈ map kind, name ∈ names := by
      simp only [entries, Option.mem_def]
    show (insertAll _ rows).IsListed kind name ↔ _ ∨ _
    rw [isListed_insertAll, merged, own, or_comm]

end ExcludeTable

/-- A member is left out exactly if its module hides it or calls it deprecated, a name in effect
under its kind or under every kind hides it, or it would be left out anyway; the order of the
configured rows does not matter. A table is empty exactly if it hides nothing. -/
theorem skipsMember_iff :
    (∀ (source : Text) (config : DocstringConfig) (map : Option ExcludeTable.NamesMap),
      ExcludeTable.IsRowsOf config.autodocExcludes map → ∀ kind name skip,
        let members := ModuleMembers.ofSource source
        let InEffect := ExcludeTable.InEffect config.autodocExcludeDefaults map
        skipsMember members (ExcludeTable.ofConfig config) kind name skip = true ↔
          name ∈ members.excludes ∨ (InEffect kind name ∨ InEffect ExcludeTable.anyKind name) ∨
            name ∈ members.deprecated ∨ skip = true) ∧
      ∀ rows, (ExcludeTable.empty.insertAll rows).isEmpty = true ↔
        ∀ kind name, (ExcludeTable.empty.insertAll rows).excludes kind name = false := by
  refine ⟨?_, fun rows => ExcludeTable.isEmpty_iff_excludes⟩
  intro source config map isRows kind name skip members InEffect
  have hidden : (ExcludeTable.ofConfig config).excludes kind name = true ↔
      InEffect kind name ∨ InEffect ExcludeTable.anyKind name := by
    rw [ExcludeTable.excludes_iff, ExcludeTable.isListed_ofConfig isRows,
      ExcludeTable.isListed_ofConfig isRows]
  rw [skipsMember, Bool.or_eq_true, Bool.or_eq_true, Bool.or_eq_true, hidden,
    List.contains_iff_mem, List.contains_iff_mem, or_assoc, or_assoc]

def sampleNames : NamesByKind := [("class", ["foo"]), ("*", [])]

def sampleExcludes : DocstringConfig where
  autodocExcludes := some [("*", []), ("class", ["foo"])]
  autodocExcludeDefaults := true

theorem skipsMember_sampleExcludes :
    ExcludeTable.IsRowsOf sampleExcludes.autodocExcludes (some fun kind => sampleNames.lookup kind) ∧
      skipsMember (ModuleMembers.ofSource "__deprecated__ = ['old']")
        (ExcludeTable.ofConfig sampleExcludes) "class" "__doc__" false = true ∧
      skipsMember (ModuleMembers.ofSource "__deprecated__ = ['old']")
        (ExcludeTable.ofConfig sampleExcludes) "module" "foo" false = false := by
  have isRows : ExcludeTable.IsRowsOf sampleExcludes.autodocExcludes
      (some fun kind => sampleNames.lookup kind) :=
    ExcludeTable.isRowsOf_of_perm (by decide) (List.Perm.swap _ _ _)
  have decision := skipsMember_iff.1 "__deprecated__ = ['old']" sampleExcludes _ isRows
  have byDefault : ExcludeTable.IsDefault ExcludeTable.anyKind "__doc__" := ⟨rfl, by decide⟩
  refine ⟨isRows, ?_, ?_⟩
  · exact (decision "class" "__doc__" false).mpr (Or.inr (Or.inl (Or.inr (Or.inr ⟨rfl, byDefault⟩))))
  · rw [← Bool.not_eq_true]
    intro skipped
    rcases (decision "module" "foo" false).mp skipped with own | (named | any) | deprecated | left
    · exact absurd own (by decide +kernel)
    · rcases named with ⟨names, found, -⟩ | ⟨-, default, -⟩
      · cases found
      · exact absurd default (by decide)
    · rcases any with ⟨names, found, inside⟩ | ⟨-, -, inside⟩
      · cases found
        cases inside
      · exact absurd inside (by decide)
    · exact absurd deprecated (by decide +kernel)
    · cases left

end DocMarkup
