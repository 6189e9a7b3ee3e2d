import DocMarkup.Section.Scope

namespace DocMarkup

theorem Text.indent_of_headerWords? {line words : Text} (h : line.headerWords? = some words) :
    words.indent = 0 ↔ line.indent = 0 := by
  simp only [headerWords?, Option.ite_none_right_eq_some, Bool.and_eq_true, beq_iff_eq,
    Option.some.injEq] at h
  obtain ⟨⟨⟨last, nonempty⟩, -⟩, rfl⟩ := h
  obtain ⟨front, same⟩ : ∃ front, line.lowerCase = front ++ [':'] :=
    List.getLast?_eq_some_iff.mp last
  rw [← indent_lowerCase line, same, List.dropLast_concat]
  rw [same, List.dropLast_concat] at nonempty
  cases front with
  | nil => simp at nonempty
  | cons c front =>
    by_cases blank : isBlank c = true <;> simp [indent, margin, blank]

namespace Registry

variable {registry : Registry}

theorem indent_of_get? {keyword : Text} {strategy : Strategy}
    (h : registry.get? keyword = some strategy) : keyword.indent = 0 := by
  rw [get?, List.lookup_eq_some_iff] at h
  obtain ⟨before, after, same, -⟩ := h
  rw [← Text.indent_lowerCase]
  exact registry.unindented (keyword.lowerCase, strategy) (by simp [same])

theorem indent_of_headerAt? {line : Text} {rest : Block} {strategy : Strategy}
    (h : registry.headerAt? (line :: rest) = some strategy) :
    line.indent = 0 ∧ 0 < Block.leadingIndent rest := by
  simp only [headerAt?] at h
  split at h
  · rename_i found
    rw [Option.ite_none_right_eq_some] at h
    obtain ⟨words, form, known⟩ := Option.bind_eq_some_iff.mp found
    have margin := (Text.indent_of_headerWords? form).mp (indent_of_get? known)
    omega
  · contradiction

theorem headerAt?_of_indented {line : Text} (h : 0 < line.indent) (rest : Block) :
    registry.headerAt? (line :: rest) = none := by
  rw [Option.eq_none_iff_forall_ne_some]
  intro strategy found
  have := (indent_of_headerAt? found).1
  omega

theorem headerAt?_blank (rest : Block) : registry.headerAt? ([] :: rest) = none := rfl

theorem headerAt?_congr {line : Text} {rest rest' : Block}
    (h : Block.leadingIndent rest = Block.leadingIndent rest') :
    registry.headerAt? (line :: rest) = registry.headerAt? (line :: rest') := by
  simp only [headerAt?, h]

end Registry

end DocMarkup
