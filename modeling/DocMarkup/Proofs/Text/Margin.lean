import DocMarkup.Text.Block

namespace DocMarkup.Text

def IsMargin (text : Text) : Prop := ∀ c ∈ text, isBlank c = true

theorem isMargin_spaces (n : Nat) : (spaces n).IsMargin := by
  intro c member
  rw [List.eq_of_mem_replicate member]
  decide

theorem isMargin_margin (text : Text) : text.margin.IsMargin :=
  fun c member => List.all_eq_true.mp List.all_takeWhile c member

theorem IsMargin.not_mem {blanks : Text} (blank : blanks.IsMargin) {c : Char}
    (content : isBlank c = false) : c ∉ blanks := by
  intro member
  rw [blank c member] at content
  cases content

section Prepended

variable {blanks : Text} (blank : blanks.IsMargin)

include blank

theorem margin_append (text : Text) : (blanks ++ text).margin = blanks ++ text.margin :=
  List.takeWhile_append_of_pos blank

theorem trimStart_append (text : Text) : (blanks ++ text).trimStart = text.trimStart :=
  List.dropWhile_append_of_pos blank

theorem trim_append (text : Text) : (blanks ++ text).trim = text.trim := by
  rw [trim, trimStart_append blank, trim]

theorem indent_append (text : Text) : (blanks ++ text).indent = blanks.length + text.indent := by
  rw [indent, margin_append blank, List.length_append, indent]

end Prepended

theorem indent_spaces_append (n : Nat) (text : Text) :
    (spaces n ++ text).indent = n + text.indent := by
  rw [indent_append (isMargin_spaces n), spaces, List.length_replicate]

theorem margin_append_trimStart (text : Text) : text.margin ++ text.trimStart = text :=
  List.takeWhile_append_dropWhile

theorem all_take_isBlank_iff {text : Text} {n : Nat} (le : n ≤ text.length) :
    (text.take n).all isBlank = true ↔ n ≤ text.indent := by
  induction text generalizing n with
  | nil => simp_all
  | cons c rest ih =>
    cases n with
    | zero => simp
    | succ n =>
      rw [List.length_cons, Nat.succ_le_succ_iff] at le
      by_cases blank : isBlank c = true
      · simp only [List.take_succ_cons, List.all_cons, blank, Bool.true_and, ih le]
        simp [indent, margin, blank]
      · simp [indent, margin, blank]

theorem isIndented_iff {text : Text} {n : Nat} :
    text.isIndented n = true ↔ n < text.length ∧ n ≤ text.indent := by
  simp only [isIndented, Bool.and_eq_true, decide_eq_true_eq]
  constructor
  · rintro ⟨lt, all⟩
    exact ⟨lt, (all_take_isBlank_iff (Nat.le_of_lt lt)).mp all⟩
  · rintro ⟨lt, le⟩
    exact ⟨lt, (all_take_isBlank_iff (Nat.le_of_lt lt)).mpr le⟩

theorem margin_append_of_content {text : Text} (h : text.indent < text.length) (rest : Text) :
    (text ++ rest).margin = text.margin := by
  induction text with
  | nil => exact absurd h (Nat.lt_irrefl 0)
  | cons c text ih =>
    by_cases blank : isBlank c = true
    · have deeper : Text.indent text < text.length := by simpa [indent, margin, blank] using h
      have tail := ih deeper
      unfold margin at tail ⊢
      rw [List.cons_append, List.takeWhile_cons_of_pos blank, List.takeWhile_cons_of_pos blank, tail]
    · simp [margin, blank]

def Solid (line : Text) : Prop := line ≠ [] → line.indent < line.length

theorem indent_lt_length_iff {text : Text} :
    text.indent < text.length ↔ ∃ c ∈ text, isBlank c = false := by
  induction text with
  | nil => simp [indent, margin]
  | cons c rest ih =>
    by_cases blank : isBlank c = true
    · simp only [indent, margin] at ih
      simp [indent, margin, blank, ih]
    · simp [indent, margin, blank]

theorem Solid.isIndented_iff {line : Text} (solid : line.Solid) (nonempty : line ≠ []) {n : Nat} :
    line.isIndented n = true ↔ n ≤ line.indent := by
  have := solid nonempty
  rw [Text.isIndented_iff]
  omega

theorem solid_trimEnd (text : Text) : text.trimEnd.Solid := by
  intro nonempty
  rw [indent_lt_length_iff]
  have kept : text.reverse.dropWhile isBlank ≠ [] := by simpa [trimEnd] using nonempty
  refine ⟨_, List.mem_reverse.mpr (List.head_mem kept), ?_⟩
  simpa using List.head_dropWhile_not isBlank kept

theorem solid_append_right {line : Text} {c : Char} (content : isBlank c = false) :
    (line ++ [c]).Solid :=
  fun _ => indent_lt_length_iff.mpr ⟨c, by simp, content⟩

end DocMarkup.Text
