import DocMarkup.Outline.Statement
import DocMarkup.Proofs.Text.Lines

/-!
Places in a source: what is open where the reading of a line comes to a character. A comment has no
places, since a line is not read behind its hash.
-/

namespace DocMarkup

namespace Literal

def IsQuoted (literal : Option Literal) : Prop := ∀ opened ∈ literal, isQuote opened.quote = true

theorem isQuoted_none : IsQuoted none := by
  intro opened absurd
  cases absurd

theorem isQuoted_some {c : Char} (quote : isQuote c = true) (triple : Bool) :
    IsQuoted (some ⟨c, triple⟩) := by
  intro opened same
  cases same
  exact quote

end Literal

/-- What is open in front of a character of a line, with the number of characters from there on that
have been read already. -/
structure ScanPoint where
  skip : Nat
  depth : Nat
  literal : Option Literal

namespace ScanPoint

def ofState (state : SourceState) : ScanPoint := ⟨0, state.depth, state.literal⟩

def scan (point : ScanPoint) (rest : Text) : SourceState :=
  SourceState.scan point.skip point.depth point.literal rest

def step (point : ScanPoint) (c : Char) (rest : Text) : Option ScanPoint :=
  match point.skip, point.literal with
  | skip + 1, _ => some { point with skip }
  | 0, some opened =>
    if c == '\\' then some { point with skip := 1 }
    else if c != opened.quote then some point
    else if !opened.triple then some { point with literal := none }
    else if SourceState.isTripled c rest then some { point with skip := 2, literal := none }
    else some point
  | 0, none =>
    if c == '#' then none
    else if isQuote c then
      if SourceState.isTripled c rest then some { point with skip := 2, literal := some ⟨c, true⟩ }
      else some { point with literal := some ⟨c, false⟩ }
    else some { point with depth := bracketDepth point.depth c }

/-- The place behind `before`, when `rest` follows in the line. -/
def through? (rest : Text) (point : ScanPoint) : Text → Option ScanPoint
  | [] => some point
  | c :: before => (point.step c (before ++ rest)).bind fun next => through? rest next before

theorem scan_cons (point : ScanPoint) (c : Char) {rest : Text} (nonempty : rest ≠ []) :
    point.scan (c :: rest) =
      match point.step c rest with
      | some next => next.scan rest
      | none => ⟨point.depth, none, false⟩ := by
  obtain ⟨skip, depth, literal⟩ := point
  rcases skip with _ | skip
  · cases literal with
    | some opened =>
      simp only [scan, SourceState.scan, step]
      split <;> rename_i escape
      · rfl
      split <;> rename_i inner
      · rfl
      split <;> rename_i single
      · rfl
      split <;> rfl
    | none =>
      -- A backslash joins lines only at the end of its line, and here there is more.
      have last : (c == '\\' && rest.isEmpty) = false := by
        rw [List.isEmpty_eq_false_iff.mpr nonempty, Bool.and_false]
      simp only [scan, SourceState.scan, step, last]
      split <;> rename_i hash
      · rfl
      split <;> rename_i quote
      · split <;> rfl
      · rfl
  · rfl

theorem scan_append {rest : Text} (nonempty : rest ≠ []) {point next : ScanPoint} {before : Text}
    (goes : point.through? rest before = some next) :
    point.scan (before ++ rest) = next.scan rest := by
  induction before generalizing point with
  | nil =>
    cases goes
    rfl
  | cons c before ih =>
    obtain ⟨middle, first, goes⟩ := Option.bind_eq_some_iff.mp goes
    have more : before ++ rest ≠ [] := List.append_ne_nil_of_right_ne_nil before nonempty
    rw [List.cons_append, scan_cons point c more, first]
    exact ih goes

structure LooksLike (rest rest' : Text) : Prop where
  head? : rest.head? = rest'.head?
  isTripled {c : Char} : isQuote c = true →
    SourceState.isTripled c rest = SourceState.isTripled c rest'

theorem LooksLike.append {rest rest' : Text} (alike : LooksLike rest rest') (before : Text) :
    LooksLike (before ++ rest) (before ++ rest') := by
  rcases before with _ | ⟨c, _ | ⟨d, before⟩⟩
  · exact alike
  · refine ⟨rfl, fun _ => ?_⟩
    have first : rest.take 1 = rest'.take 1 := by
      rw [List.take_one, List.take_one, alike.head?]
    simp only [SourceState.isTripled, List.cons_append, List.nil_append, List.take_succ_cons, first]
  · exact ⟨rfl, fun _ => rfl⟩

theorem step_congr {point : ScanPoint} (quoted : Literal.IsQuoted point.literal) (c : Char)
    {rest rest' : Text} (alike : LooksLike rest rest') :
    point.step c rest = point.step c rest' := by
  obtain ⟨skip, depth, literal⟩ := point
  rcases skip with _ | skip
  · cases literal with
    | some opened =>
      simp only [step]
      by_cases closes : c = opened.quote
      · rw [alike.isTripled (closes ▸ quoted opened rfl)]
      · simp [closes]
    | none =>
      simp only [step]
      by_cases quote : isQuote c = true
      · rw [alike.isTripled quote]
      · simp [quote]
  · rfl

theorem isQuoted_step {point next : ScanPoint} (quoted : Literal.IsQuoted point.literal) {c : Char}
    {rest : Text} (goes : point.step c rest = some next) : Literal.IsQuoted next.literal := by
  obtain ⟨skip, depth, literal⟩ := point
  rcases skip with _ | skip
  · cases literal with
    | some opened =>
      simp only [step] at goes
      split at goes
      · cases goes
        exact quoted
      split at goes
      · cases goes
        exact quoted
      split at goes
      · cases goes
        exact Literal.isQuoted_none
      split at goes
      · cases goes
        exact Literal.isQuoted_none
      · cases goes
        exact quoted
    | none =>
      simp only [step] at goes
      split at goes
      · contradiction
      split at goes
      · rename_i quote
        split at goes <;> cases goes
        · exact Literal.isQuoted_some quote true
        · exact Literal.isQuoted_some quote false
      · cases goes
        exact quoted
  · cases goes
    exact quoted

theorem through?_congr {point : ScanPoint} (quoted : Literal.IsQuoted point.literal)
    {rest rest' : Text} (alike : LooksLike rest rest') (before : Text) :
    point.through? rest before = point.through? rest' before := by
  induction before generalizing point with
  | nil => rfl
  | cons c before ih =>
    rw [through?, through?, step_congr quoted c (alike.append before)]
    cases goes : point.step c (before ++ rest') with
    | none => rfl
    | some next => exact ih (isQuoted_step quoted goes)

theorem isQuoted_scan {skip depth : Nat} {literal : Option Literal}
    (quoted : Literal.IsQuoted literal) (line : Text) :
    Literal.IsQuoted (SourceState.scan skip depth literal line).literal := by
  fun_induction SourceState.scan skip depth literal line with
  | case1 => exact quoted
  | case2 _ _ _ _ _ ih => exact ih quoted
  | case3 _ _ _ _ _ ih => exact ih quoted
  | case4 _ _ _ _ _ _ ih => exact ih quoted
  | case5 _ _ _ _ _ _ _ ih => exact ih Literal.isQuoted_none
  | case6 _ _ _ _ _ _ _ _ ih => exact ih Literal.isQuoted_none
  | case7 _ _ _ _ _ _ _ _ ih => exact ih quoted
  | case8 => exact quoted
  | case9 _ _ _ _ quote _ ih => exact ih (Literal.isQuoted_some quote true)
  | case10 _ _ _ _ quote _ ih => exact ih (Literal.isQuoted_some quote false)
  | case11 => exact quoted
  | case12 _ _ _ _ _ _ ih => exact ih quoted

theorem isQuoted_next {state : SourceState} (quoted : Literal.IsQuoted state.literal)
    (line : Text) : Literal.IsQuoted (state.next line).literal := by
  have read : Literal.IsQuoted (SourceState.scan 0 state.depth state.literal line).literal :=
    isQuoted_scan quoted line
  rw [SourceState.next, SourceState.endLine]
  split
  · split
    · exact Literal.isQuoted_none
    · exact read
  · exact read

theorem isQuoted_behind (state : SourceState) (quoted : Literal.IsQuoted state.literal)
    (lines : List Text) : Literal.IsQuoted (lines.foldl SourceState.next state).literal := by
  induction lines generalizing state with
  | nil => exact quoted
  | cons line lines ih => exact ih (state.next line) (isQuoted_next quoted line)

end ScanPoint

/-- When a source begins with `before` and `rest`, its reading comes to `rest` at this place. -/
def ComesTo (before rest : Text) (point : ScanPoint) : Prop :=
  ∃ earlier line : Text, before = earlier ++ line ∧ earlier.EndsLine ∧ '\n' ∉ line ∧
    (ScanPoint.ofState (earlier.lines.foldl SourceState.next {})).through? rest line = some point

theorem ComesTo.exists_line {before rest : Text} {point : ScanPoint}
    (comes : ComesTo before rest point) :
    ∃ earlier line : Text, before = earlier ++ line ∧ earlier.EndsLine ∧ '\n' ∉ line ∧
      ∀ rest', ScanPoint.LooksLike rest rest' →
        (ScanPoint.ofState (earlier.lines.foldl SourceState.next {})).through? rest' line =
          some point := by
  obtain ⟨earlier, line, split, ends, inside, goes⟩ := comes
  have quoted := ScanPoint.isQuoted_behind {} Literal.isQuoted_none earlier.lines
  refine ⟨earlier, line, split, ends, inside, ?_⟩
  intro rest' alike
  rw [← goes]
  exact (ScanPoint.through?_congr quoted alike line).symm

end DocMarkup
