import DocMarkup.Text.Basic

namespace DocMarkup.Text

def cutLine : Text → Text × Text
  | [] => ([], [])
  | '\n' :: rest => ([], rest)
  | '\r' :: '\n' :: rest => ([], rest)
  | c :: rest => (c :: (cutLine rest).1, (cutLine rest).2)

def EndsLine (text : Text) : Prop := text = [] ∨ text.getLast? = some '\n'

section Cons

variable {c : Char} {rest : Text} (inside : c ≠ '\n') (noBreak : c = '\r' → rest.head? ≠ some '\n')

include inside noBreak

theorem cutLine_cons : cutLine (c :: rest) = (c :: (cutLine rest).1, (cutLine rest).2) := by
  refine cutLine.eq_4 c rest inside ?_
  rintro _ same rfl
  exact noBreak same rfl

theorem lines_cons : lines (c :: rest) = consFirst c (lines rest) := by
  refine lines.eq_4 c rest inside ?_
  rintro _ same rfl
  exact noBreak same rfl

end Cons

theorem lines_ne_nil {text : Text} (nonempty : text ≠ []) : lines text ≠ [] := by
  fun_cases lines text with
  | case1 => contradiction
  | case2 => exact List.cons_ne_nil _ _
  | case3 => exact List.cons_ne_nil _ _
  | case4 c rest => cases lines rest <;> exact List.cons_ne_nil _ _

theorem lines_eq_cutLine {text : Text} (nonempty : text ≠ []) :
    lines text = (cutLine text).1 :: lines (cutLine text).2 := by
  induction text with
  | nil => contradiction
  | cons c rest ih =>
    by_cases ends : c = '\n'
    · subst ends
      rfl
    by_cases returns : c = '\r' ∧ rest.head? = some '\n'
    · obtain ⟨rfl, first⟩ := returns
      obtain ⟨behind, rfl⟩ := List.head?_eq_some_iff.mp first
      rfl
    have noBreak : c = '\r' → rest.head? ≠ some '\n' := fun same first => returns ⟨same, first⟩
    rw [lines_cons ends noBreak, cutLine_cons ends noBreak]
    by_cases last : rest = []
    · subst last
      rfl
    · rw [ih last, consFirst]

theorem cutLine_append_snd {before : Text} (inside : '\n' ∉ before) (rest : Text) :
    (cutLine (before ++ rest)).2 = (cutLine rest).2 := by
  induction before with
  | nil => rfl
  | cons c before ih =>
    rw [List.mem_cons, not_or] at inside
    by_cases returns : c = '\r' ∧ (before ++ rest).head? = some '\n'
    · obtain ⟨rfl, first⟩ := returns
      obtain ⟨behind, same⟩ := List.head?_eq_some_iff.mp first
      rw [← ih inside.2, List.cons_append, same]
      rfl
    · rw [List.cons_append, cutLine_cons (Ne.symm inside.1) fun same first => returns ⟨same, first⟩]
      exact ih inside.2

theorem cutLine_append_fst {before : Text} (inside : '\n' ∉ before) {c : Char} (plain : c ≠ '\n')
    (rest : Text) : (cutLine (before ++ c :: rest)).1 = before ++ (cutLine (c :: rest)).1 := by
  induction before with
  | nil => rfl
  | cons d before ih =>
    rw [List.mem_cons, not_or] at inside
    have noBreak : d = '\r' → (before ++ c :: rest).head? ≠ some '\n' := by
      intro _ first
      cases before with
      | nil => exact plain (Option.some.inj first)
      | cons e before => exact inside.2 (Option.some.inj first ▸ List.mem_cons_self)
    rw [List.cons_append, cutLine_cons (Ne.symm inside.1) noBreak, ih inside.2, List.cons_append]

theorem EndsLine.tail {c : Char} {text : Text} (ends : EndsLine (c :: text)) : EndsLine text := by
  cases text with
  | nil => exact Or.inl rfl
  | cons d text =>
    rcases ends with absurd | last
    · cases absurd
    · exact Or.inr last

theorem lines_append {before : Text} (ends : EndsLine before) (rest : Text) :
    lines (before ++ rest) = lines before ++ lines rest := by
  fun_induction lines before with
  | case1 => rfl
  | case2 before ih => rw [List.cons_append, lines, ih ends.tail, List.cons_append]
  | case3 before ih =>
    rw [List.cons_append, List.cons_append, lines, ih ends.tail.tail, List.cons_append]
  | case4 c before notFeed notReturn ih =>
    cases before with
    | nil =>
      rcases ends with absurd | last
      · cases absurd
      · exact absurd (Option.some.inj last) notFeed
    | cons d before =>
      have noBreak : c = '\r' → (d :: before ++ rest).head? ≠ some '\n' := by
        intro same first
        exact notReturn before same (by rw [Option.some.inj first])
      rw [List.cons_append, lines_cons notFeed noBreak, ih ends.tail]
      obtain ⟨line, others, same⟩ :=
        List.exists_cons_of_ne_nil (lines_ne_nil (List.cons_ne_nil d before))
      rw [same]
      rfl

end DocMarkup.Text
