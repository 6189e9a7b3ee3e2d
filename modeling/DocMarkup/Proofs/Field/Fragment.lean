import DocMarkup.Field.Wrapped
import DocMarkup.Proofs.Text.Trim

namespace DocMarkup.Wrapped

open Text

theorem joinWith_append (separator : Text) {before after : List Text} (left : before ≠ [])
    (right : after ≠ []) :
    joinWith separator (before ++ after) =
      joinWith separator before ++ separator ++ joinWith separator after := by
  unfold joinWith
  induction before with
  | nil => exact absurd rfl left
  | cons text before ih =>
    cases before with
    | nil => simp [List.intercalate_cons_of_ne_nil right]
    | cons next before =>
      have tail := ih (List.cons_ne_nil _ _)
      rw [List.cons_append, List.cons_append, List.intercalate_cons_cons, ← List.cons_append, tail,
        List.intercalate_cons_cons]
      simp

theorem spaceCommas_of_not_mem {text : Text} (h : ',' ∉ text) : spaceCommas text = text.trim := by
  rw [spaceCommas, List.splitOn_eq_singleton h]
  simp [joinWith]

theorem spaceCommas_comma (before after : Text) :
    spaceCommas (before ++ ',' :: after) = spaceCommas before ++ ", " ++ spaceCommas after := by
  unfold spaceCommas
  rw [List.splitOn_append_cons_self, List.map_append]
  exact joinWith_append _ (by simp [List.splitOn_ne_nil]) (by simp [List.splitOn_ne_nil])

theorem spaceCommas_blanks_append {blanks : Text} (blank : blanks.IsMargin) (text : Text) :
    spaceCommas (blanks ++ text) = spaceCommas text := by
  by_cases member : ',' ∈ text
  · obtain ⟨before, after, rfl, first⟩ := List.eq_append_cons_of_mem member
    have absent : ',' ∉ blanks ++ before := by
      simp [blank.not_mem (c := ',') (by decide), first]
    rw [← List.append_assoc, spaceCommas_comma, spaceCommas_comma, spaceCommas_of_not_mem absent,
      spaceCommas_of_not_mem first, trim_append blank]
  · have absent : ',' ∉ blanks ++ text := by
      simp [blank.not_mem (c := ',') (by decide), member]
    rw [spaceCommas_of_not_mem absent, spaceCommas_of_not_mem member, trim_append blank]

@[elab_as_elim]
theorem comma_induction {motive : Text → Prop} (text : Text)
    (whole : ∀ text, ',' ∉ text → motive text)
    (cut : ∀ before after, ',' ∉ before → motive after → motive (before ++ ',' :: after)) :
    motive text := by
  generalize size : text.length = n
  induction n using Nat.strongRecOn generalizing text with
  | ind n ih =>
    by_cases member : ',' ∈ text
    · obtain ⟨before, after, rfl, first⟩ := List.eq_append_cons_of_mem member
      have shorter : after.length < n := by
        simp only [List.length_append, List.length_cons] at size
        omega
      exact cut before after first (ih _ shorter after rfl)
    · exact whole text member

theorem spaceCommas_append_blanks {blanks : Text} (blank : blanks.IsMargin) (text : Text) :
    spaceCommas (text ++ blanks) = spaceCommas text := by
  induction text using comma_induction with
  | whole text member =>
    have absent : ',' ∉ text ++ blanks := by
      simp [blank.not_mem (c := ',') (by decide), member]
    rw [spaceCommas_of_not_mem absent, spaceCommas_of_not_mem member, trim_append_blanks blank]
  | cut before after _ ih =>
    rw [List.append_assoc, List.cons_append, spaceCommas_comma, ih, spaceCommas_comma]

theorem spaceCommas_space_behind (before after : Text) :
    spaceCommas (before ++ ',' :: ' ' :: after) = spaceCommas (before ++ ',' :: after) := by
  have dropped := spaceCommas_blanks_append (isMargin_spaces 1) after
  rw [spaceCommas_comma, spaceCommas_comma, ← dropped]
  rfl

theorem spaceCommas_space_before (before after : Text) :
    spaceCommas (before ++ ' ' :: ',' :: after) = spaceCommas (before ++ ',' :: after) := by
  have dropped := spaceCommas_append_blanks (isMargin_spaces 1) before
  rw [spaceCommas_comma, ← dropped, ← spaceCommas_comma, List.append_assoc]
  rfl

def IsGap (gap : Text) : Prop := gap = [] ∨ gap = [' ']

theorem IsGap.isMargin {gap : Text} (h : IsGap gap) : gap.IsMargin := by
  rcases h with rfl | rfl
  · exact isMargin_spaces 0
  · exact isMargin_spaces 1

theorem spaceCommas_gap_behind {gap : Text} (h : IsGap gap) (before after : Text) :
    spaceCommas (before ++ ',' :: (gap ++ after)) = spaceCommas (before ++ ',' :: ' ' :: after) := by
  rcases h with rfl | rfl
  · exact (spaceCommas_space_behind before after).symm
  · rfl

/-- One space stands behind every comma and none in front. -/
def Spaced (text : Text) : Prop :=
  ∀ before after, text = before ++ ',' :: after →
    before.trimEnd = before ∧ ∃ rest, after = ' ' :: rest ∧ margin rest = []

theorem Spaced.of_append {before after : Text} (h : Spaced (before ++ after)) : Spaced after := by
  intro earlier later same
  obtain ⟨tight, behind⟩ := h (before ++ earlier) later (by rw [same, List.append_assoc])
  exact ⟨trimEnd_of_append_right before tight, behind⟩

theorem spaceCommas_eq_trimStart {text : Text} (ends : text.trimEnd = text) (spaced : Spaced text) :
    spaceCommas text = text.trimStart := by
  induction text using comma_induction with
  | whole text member =>
    have suffix := trimEnd_of_append_right text.margin (by rwa [margin_append_trimStart])
    rw [spaceCommas_of_not_mem member, trim, suffix]
  | cut before after first ih =>
    obtain ⟨tight, rest, rfl, starts⟩ := spaced before after rfl
    have left := trimEnd_of_append_right before.margin (by rwa [margin_append_trimStart])
    have right : trimStart (' ' :: rest) = rest :=
      (trimStart_append (isMargin_spaces 1) rest).trans (trimStart_eq_self starts)
    have joined : before ++ ',' :: ' ' :: rest = (before ++ [',']) ++ ' ' :: rest := by simp
    rw [joined] at ends spaced
    rw [spaceCommas_comma, spaceCommas_of_not_mem first, trim, left,
      ih (trimEnd_of_append_right _ ends) spaced.of_append, right,
      trimStart_append_cons (by decide)]
    simp

theorem spaceCommas_eq_self {text : Text} (trimmed : text.trim = text) (spaced : Spaced text) :
    spaceCommas text = text := by
  rw [spaceCommas_eq_trimStart (trimEnd_of_trim_eq trimmed) spaced,
    trimStart_eq_self (margin_of_trim_eq trimmed)]

theorem endsWith_concat (text : Text) (c d : Char) : endsWith (text ++ [c]) [d] = (c == d) := by
  simp [endsWith, List.isSuffixOf, List.isPrefixOf, Bool.beq_comm (a := c)]

theorem glue_point_left (text fragment : Text) :
    glue (text ++ ['.']) fragment = text ++ ['.'] ++ fragment := by
  simp [glue, endsWith_concat]

theorem glue_point_right (text fragment : Text) :
    glue text ('.' :: fragment) = text ++ '.' :: fragment := by
  simp [glue, startsWith, List.isPrefixOf]

theorem glue_space {a c : Char} (left : a ≠ '.') (right : c ≠ '.') (text fragment : Text) :
    glue (text ++ [a]) (c :: fragment) = text ++ [a] ++ ' ' :: c :: fragment := by
  have differs : ('.' == c) = false := by simpa using right.symm
  simp [glue, endsWith_concat, startsWith, List.isPrefixOf, left, differs]

theorem exists_glue (text fragment : Text) :
    ∃ gap, IsGap gap ∧ glue text fragment = text ++ gap ++ fragment := by
  unfold glue
  split
  · exact ⟨[], Or.inl rfl, by simp⟩
  · exact ⟨[' '], Or.inr rfl, rfl⟩

end DocMarkup.Wrapped
