import DocMarkup.Proofs.Text.Trim

namespace DocMarkup

namespace Text

def deepen (n : Nat) (line : Text) : Text := if line.trim.isEmpty then line else spaces n ++ line

theorem deepen_nil (n : Nat) : deepen n [] = [] := rfl

theorem deepen_of_content {line : Text} (h : line.trim ≠ []) (n : Nat) :
    line.deepen n = spaces n ++ line := by
  simp [deepen, h]

theorem Solid.trim_ne_nil {line : Text} (solid : line.Solid) (nonempty : line ≠ []) :
    line.trim ≠ [] := by
  obtain ⟨c, member, content⟩ := indent_lt_length_iff.mp (solid nonempty)
  exact List.ne_nil_of_mem ((mem_trim_iff content).mpr member)

theorem trim_eq_nil_iff_trimEnd {line : Text} : line.trim = [] ↔ line.trimEnd = [] := by
  constructor
  · intro blank
    refine Decidable.byContradiction fun nonempty => ?_
    have content := (solid_trimEnd line).trim_ne_nil nonempty
    rw [trim_trimEnd] at content
    exact content blank
  · intro empty
    rw [← trim_trimEnd, empty]
    rfl

theorem trim_deepen (n : Nat) (line : Text) : (line.deepen n).trim = line.trim := by
  unfold deepen
  split
  · rfl
  · exact trim_append (isMargin_spaces n) line

theorem trimStart_deepen (n : Nat) (line : Text) : (line.deepen n).trimStart = line.trimStart := by
  unfold deepen
  split
  · rfl
  · exact trimStart_append (isMargin_spaces n) line

theorem trimEnd_deepen (n : Nat) (line : Text) : (line.deepen n).trimEnd = line.trimEnd.deepen n := by
  by_cases blank : line.trim = []
  · rw [trim_eq_nil_iff_trimEnd.mp blank, deepen_nil, deepen, blank]
    exact trim_eq_nil_iff_trimEnd.mp blank
  · have kept : line.trimEnd.trim ≠ [] := by rwa [trim_trimEnd]
    have nonempty : line.trimEnd ≠ [] := fun empty => blank (trim_eq_nil_iff_trimEnd.mpr empty)
    rw [deepen_of_content blank, deepen_of_content kept, trimEnd_append_of_trimEnd_ne_nil nonempty]

theorem deepen_eq_nil_iff {line : Text} {n : Nat} : line.deepen n = [] ↔ line = [] := by
  unfold deepen
  split
  · rfl
  · rename_i content
    have nonempty : line ≠ [] := by
      rintro rfl
      exact content rfl
    simp [nonempty]

theorem deepen_ne_nil {line : Text} (nonempty : line ≠ []) (n : Nat) : line.deepen n ≠ [] :=
  fun empty => nonempty (deepen_eq_nil_iff.mp empty)

theorem indent_deepen {line : Text} (content : line.trim ≠ []) (n : Nat) :
    (line.deepen n).indent = n + line.indent := by
  rw [deepen_of_content content, indent_spaces_append]

theorem Solid.deepen {line : Text} (solid : line.Solid) (n : Nat) : (line.deepen n).Solid := by
  intro nonempty
  have content := solid.trim_ne_nil (fun empty => nonempty (deepen_eq_nil_iff.mpr empty))
  have shorter := solid (fun empty => nonempty (deepen_eq_nil_iff.mpr empty))
  rw [indent_deepen content, deepen_of_content content, List.length_append, spaces,
    List.length_replicate]
  omega

theorem unindent_spaces_append (n m : Nat) (line : Text) :
    unindent (n + m) (spaces n ++ line) = unindent m line := by
  induction n with
  | zero => rw [Nat.zero_add, spaces, List.replicate_zero, List.nil_append]
  | succ n ih =>
    have blank : isBlank ' ' = true := by decide
    rw [Nat.succ_add, spaces, List.replicate_succ, List.cons_append, unindent, if_pos blank]
    exact ih

end Text

namespace Block

def deepen (n : Nat) (lines : Block) : Block := lines.map (Text.deepen n)

theorem deepen_cons (n : Nat) (line : Text) (rest : Block) :
    deepen n (line :: rest) = line.deepen n :: deepen n rest := rfl

theorem take_deepen (n count : Nat) (lines : Block) :
    (lines.deepen n).take count = deepen n (lines.take count) := List.map_take.symm

theorem drop_deepen (n count : Nat) (lines : Block) :
    (lines.deepen n).drop count = deepen n (lines.drop count) := List.map_drop.symm

theorem solid_deepen {lines : Block} (solid : ∀ line ∈ lines, line.Solid) (n : Nat) :
    ∀ line ∈ lines.deepen n, line.Solid := by
  intro line member
  obtain ⟨before, inside, rfl⟩ := List.mem_map.mp member
  exact (solid before inside).deepen n

theorem leadingIndent_deepen {lines : Block} (solid : ∀ line ∈ lines, line.Solid)
    (content : ∃ line ∈ lines, line ≠ []) (n : Nat) :
    leadingIndent (lines.deepen n) = n + leadingIndent lines := by
  induction lines with
  | nil => simp at content
  | cons line lines ih =>
    by_cases empty : line = []
    · subst empty
      have more : ∃ line ∈ lines, line ≠ [] := by simpa using content
      have behind := ih (fun line member => solid line (List.mem_cons_of_mem _ member)) more
      simpa [leadingIndent, deepen, Text.deepen_nil] using behind
    · have nonempty := Text.deepen_ne_nil empty n
      have first := Text.indent_deepen ((solid line List.mem_cons_self).trim_ne_nil empty) n
      simpa [leadingIndent, deepen, empty, nonempty] using first

theorem skipBlanks_deepen (n : Nat) (lines : Block) :
    skipBlanks (lines.deepen n) = (skipBlanks lines).deepen n := by
  induction lines with
  | nil => rfl
  | cons line lines ih =>
    by_cases empty : line = []
    · simpa [skipBlanks, deepen, empty, Text.deepen_nil] using ih
    · have nonempty := Text.deepen_ne_nil empty n
      simp [skipBlanks, deepen, empty, nonempty]

theorem stripBlanks_deepen (n : Nat) (lines : Block) :
    stripBlanks (lines.deepen n) = (stripBlanks lines).deepen n := by
  have reversed : ∀ lines : Block, (deepen n lines).reverse = deepen n lines.reverse :=
    fun lines => List.map_reverse.symm
  rw [stripBlanks, skipBlanks_deepen, reversed, skipBlanks_deepen, reversed, stripBlanks]

theorem min?_map_add (n : Nat) (numbers : List Nat) :
    (numbers.map (n + ·)).min? = numbers.min?.map (n + ·) := by
  cases least : numbers.min? with
  | none => simp [List.min?_eq_none_iff.mp least]
  | some m =>
    obtain ⟨member, lower⟩ := List.min?_eq_some_iff.mp least
    refine List.min?_eq_some_iff.mpr ⟨List.mem_map_of_mem member, ?_⟩
    intro b found
    obtain ⟨a, inside, rfl⟩ := List.mem_map.mp found
    exact Nat.add_le_add_left (lower a inside) n

theorem map_indent_deepen {lines : Block} (solid : ∀ line ∈ lines, line.Solid) (n : Nat) :
    ((lines.deepen n).filter (· ≠ [])).map Text.indent =
      ((lines.filter (· ≠ [])).map Text.indent).map (n + ·) := by
  induction lines with
  | nil => rfl
  | cons line lines ih =>
    have behind := ih fun line member => solid line (List.mem_cons_of_mem _ member)
    by_cases empty : line = []
    · simpa [deepen, empty, Text.deepen_nil] using behind
    · have nonempty := Text.deepen_ne_nil empty n
      have first := Text.indent_deepen ((solid line List.mem_cons_self).trim_ne_nil empty) n
      simpa [deepen, empty, nonempty, first] using behind

theorem commonIndent_deepen {lines : Block} (solid : ∀ line ∈ lines, line.Solid)
    (content : ∃ line ∈ lines, line ≠ []) (n : Nat) :
    commonIndent (lines.deepen n) = n + commonIndent lines := by
  obtain ⟨line, member, nonempty⟩ := content
  have kept : line.indent ∈ (lines.filter (· ≠ [])).map Text.indent :=
    List.mem_map_of_mem (List.mem_filter.mpr ⟨member, by simpa using nonempty⟩)
  obtain ⟨m, least⟩ := Option.isSome_iff_exists.mp (List.isSome_min?_of_mem kept)
  rw [commonIndent, map_indent_deepen solid, min?_map_add, commonIndent, least]
  rfl

/-- Deepening is undone by taking the common indentation away. -/
theorem dedent_deepen {lines : Block} (solid : ∀ line ∈ lines, line.Solid) (n : Nat) :
    dedent (lines.deepen n) = dedent lines := by
  by_cases content : ∃ line ∈ lines, line ≠ []
  · rw [dedent, commonIndent_deepen solid content, deepen, List.map_map, dedent]
    refine List.map_congr_left fun line member => ?_
    by_cases empty : line = []
    · subst empty
      cases commonIndent lines <;> cases n <;> rfl
    · have solid' := (solid line member).trim_ne_nil empty
      rw [Function.comp_apply, Text.deepen_of_content solid', Text.unindent_spaces_append]
  · have same : lines.deepen n = lines := by
      refine (List.map_congr_left fun line member => ?_).trans (List.map_id lines)
      have empty : line = [] := Decidable.byContradiction fun nonempty =>
        content ⟨line, member, nonempty⟩
      rw [empty]
      rfl
    rw [same]

end Block

end DocMarkup
