import DocMarkup.Proofs.Text.Lines

namespace DocMarkup.Text

structure OnLine (before rest : Text) : Prop where
  inside : '\n' ∉ before
  noBreak : before.getLast? = some '\r' → rest.head? ≠ some '\n'

theorem OnLine.uncons {c : Char} {before rest : Text} (onLine : OnLine (c :: before) rest) :
    c ≠ '\n' ∧ (c = '\r' → (before ++ rest).head? ≠ some '\n') ∧ OnLine before rest := by
  obtain ⟨inside, noBreak⟩ := onLine
  rw [List.mem_cons, not_or] at inside
  cases before with
  | nil => exact ⟨Ne.symm inside.1, fun same => noBreak (congrArg some same), inside.2, nofun⟩
  | cons d before =>
    refine ⟨Ne.symm inside.1, ?_, inside.2, noBreak⟩
    intro _ first
    exact inside.2 (Option.some.inj first ▸ List.mem_cons_self)

theorem cutLine_append {before rest : Text} (onLine : OnLine before rest) :
    cutLine (before ++ rest) = (before ++ (cutLine rest).1, (cutLine rest).2) := by
  induction before with
  | nil => rfl
  | cons c before ih =>
    obtain ⟨inside, noBreak, others⟩ := onLine.uncons
    rw [List.cons_append, cutLine_cons inside noBreak, ih others, List.cons_append]

theorem mem_head?_of_cutLine {text : Text} {c : Char} (first : c ∈ (cutLine text).1.head?) :
    c ∈ text.head? := by
  unfold cutLine at first
  split at first
  · exact first
  · cases first
  · cases first
  · exact first

theorem length_lines {text : Text} (ends : text.EndsLine) :
    text.lines.length = text.count '\n' := by
  fun_induction lines text with
  | case1 => rfl
  | case2 rest ih => rw [List.length_cons, ih ends.tail, List.count_cons_self]
  | case3 rest ih =>
    rw [List.length_cons, ih ends.tail.tail, List.count_cons_of_ne (by decide),
      List.count_cons_self]
  | case4 c rest notFeed notReturn ih =>
    cases rest with
    | nil =>
      rcases ends with absurd | last
      · cases absurd
      · exact (notFeed (Option.some.inj last)).elim
    | cons d rest =>
      obtain ⟨line, others, same⟩ :=
        List.exists_cons_of_ne_nil (lines_ne_nil (List.cons_ne_nil d rest))
      rw [List.count_cons_of_ne notFeed, ← ih ends.tail, same]
      rfl

theorem joinLines_consFirst (c : Char) (texts : List Text) :
    joinLines (consFirst c texts) = c :: joinLines texts := by
  rcases texts with _ | ⟨line, _ | ⟨next, texts⟩⟩ <;> rfl

def rejoin (text : Text) : Text := joinLines (lines text)

theorem rejoin_feed {rest : Text} (more : rest ≠ []) :
    rejoin ('\n' :: rest) = '\n' :: rejoin rest := by
  obtain ⟨line, texts, same⟩ := List.exists_cons_of_ne_nil (lines_ne_nil more)
  unfold rejoin
  rw [lines, same]
  cases texts <;> rfl

theorem rejoin_cons {c : Char} {rest : Text} (inside : c ≠ '\n')
    (noBreak : c = '\r' → rest.head? ≠ some '\n') : rejoin (c :: rest) = c :: rejoin rest := by
  unfold rejoin
  rw [lines_cons inside noBreak, joinLines_consFirst]

theorem rejoin_return {rest : Text} (feed : rest.head? = some '\n') :
    rejoin ('\r' :: rest) = rejoin rest := by
  obtain ⟨behind, rfl⟩ := List.head?_eq_some_iff.mp feed
  rfl

theorem rejoin_append {before rest : Text} (onLine : OnLine before rest) :
    rejoin (before ++ rest) = before ++ rejoin rest := by
  induction before with
  | nil => rfl
  | cons c before ih =>
    obtain ⟨inside, noBreak, others⟩ := onLine.uncons
    rw [List.cons_append, rejoin_cons inside noBreak, ih others, List.cons_append]

end DocMarkup.Text
