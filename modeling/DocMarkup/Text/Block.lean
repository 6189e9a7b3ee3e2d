import DocMarkup.Text.Basic

/-!
Blocks of lines: their common indentation, shifting, and the blank lines around them. A line is
blank here when it is empty; lines lose the blanks at their end before they are read.
-/

namespace DocMarkup

abbrev Block := List Text

namespace Block

def leadingIndent (lines : Block) : Nat :=
  match lines.find? (· ≠ []) with
  | some line => Text.indent line
  | none => 0

def commonIndent (lines : Block) : Nat :=
  (((lines.filter (· ≠ [])).map Text.indent).min?).getD 0

def dedent (lines : Block) : Block := lines.map (Text.unindent (commonIndent lines))

def shift (n : Nat) (lines : Block) : Block := lines.map (Text.spaces n ++ ·)

def leadingBlanks (lines : Block) : Block := lines.takeWhile (· = [])

def skipBlanks (lines : Block) : Block := lines.dropWhile (· = [])

def stripBlanks (lines : Block) : Block := (skipBlanks (skipBlanks lines).reverse).reverse

theorem leadingBlanks_append_skipBlanks (lines : Block) :
    leadingBlanks lines ++ skipBlanks lines = lines :=
  List.takeWhile_append_dropWhile

theorem skipBlanks_subset (lines : Block) : skipBlanks lines ⊆ lines :=
  (List.dropWhile_suffix _).subset

theorem ne_nil_of_head?_skipBlanks {lines : Block} {line : Text}
    (h : (skipBlanks lines).head? = some line) : line ≠ [] := by
  have stops := List.head?_dropWhile_not (fun line : Text => decide (line = [])) lines
  have first : (lines.dropWhile (· = [])).head? = some line := h
  rw [first] at stops
  exact of_decide_eq_false stops

theorem isPrefix_stripBlanks (lines : Block) : stripBlanks lines <+: skipBlanks lines := by
  have kept : skipBlanks (skipBlanks lines).reverse <:+ (skipBlanks lines).reverse :=
    List.dropWhile_suffix _
  rw [← List.reverse_prefix, List.reverse_reverse] at kept
  exact kept

theorem stripBlanks_subset (lines : Block) : stripBlanks lines ⊆ lines :=
  List.Subset.trans (isPrefix_stripBlanks lines).subset (skipBlanks_subset lines)

theorem head_stripBlanks_ne_nil {lines : Block} {first : Text} {rest : Block}
    (h : stripBlanks lines = first :: rest) : first ≠ [] := by
  obtain ⟨below, parts⟩ := isPrefix_stripBlanks lines
  rw [h] at parts
  exact ne_nil_of_head?_skipBlanks (congrArg List.head? parts.symm)

theorem length_skipBlanks_le (lines : Block) : (skipBlanks lines).length ≤ lines.length :=
  (List.dropWhile_suffix _).length_le

theorem length_skipBlanks_lt {lines : Block} (h : lines.head? = some []) :
    (skipBlanks lines).length < lines.length := by
  cases lines with
  | nil => simp at h
  | cons line rest =>
    simp only [List.head?_cons, Option.some.injEq] at h
    subst h
    have := length_skipBlanks_le rest
    simp only [skipBlanks, decide_true, List.dropWhile_cons_of_pos,
      List.length_cons] at this ⊢
    omega

end Block

/-- Cuts a list in front of its first suffix that `stop` accepts. -/
def cutBefore {α : Type} (stop : List α → Bool) : List α → List α × List α
  | [] => ([], [])
  | a :: rest =>
    if stop (a :: rest) then ([], a :: rest)
    else
      let (taken, left) := cutBefore stop rest
      (a :: taken, left)

theorem cutBefore_append {α : Type} (stop : List α → Bool) (list : List α) :
    (cutBefore stop list).1 ++ (cutBefore stop list).2 = list := by
  induction list with
  | nil => rfl
  | cons a rest ih =>
    simp only [cutBefore]
    split
    · rfl
    · simp [ih]

theorem stop_cutBefore {α : Type} {stop : List α → Bool} {list : List α}
    (h : (cutBefore stop list).2 ≠ []) : stop (cutBefore stop list).2 = true := by
  induction list with
  | nil => exact absurd rfl h
  | cons a rest ih =>
    by_cases stops : stop (a :: rest) = true
    · simp [cutBefore, stops]
    · simp only [cutBefore, stops, Bool.false_eq_true, ↓reduceIte] at h ⊢
      exact ih h

theorem continues_of_mem_cutBefore {α : Type} {stop : List α → Bool} {list : List α} {a : α}
    (member : a ∈ (cutBefore stop list).1) : ∃ rest, stop (a :: rest) = false := by
  induction list with
  | nil => cases member
  | cons b rest ih =>
    by_cases stops : stop (b :: rest) = true
    · simp [cutBefore, stops] at member
    · simp only [cutBefore, stops, Bool.false_eq_true, ↓reduceIte] at member
      rcases List.mem_cons.mp member with rfl | member
      · exact ⟨rest, by simpa using stops⟩
      · exact ih member

theorem length_cutBefore_le {α : Type} (stop : List α → Bool) (list : List α) :
    (cutBefore stop list).2.length ≤ list.length := by
  have := congrArg List.length (cutBefore_append stop list)
  rw [List.length_append] at this
  omega

theorem length_cutBefore_lt {α : Type} {stop : List α → Bool} {a : α} {rest : List α}
    (h : stop (a :: rest) = false) :
    (cutBefore stop (a :: rest)).2.length < (a :: rest).length := by
  have := length_cutBefore_le stop rest
  simp only [cutBefore, h, Bool.false_eq_true, ↓reduceIte, List.length_cons]
  omega

end DocMarkup
