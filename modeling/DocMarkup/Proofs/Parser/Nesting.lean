import DocMarkup.Parser
import DocMarkup.Proofs.Section.Docstring

namespace DocMarkup

namespace Parser

variable (parser : Parser)

/-- The docstrings inside the section that the lines begin with, if they begin with one. -/
def sectionDocstrings : Block → List Block
  | [] => []
  | line :: rest =>
    match parser.registry.headerAt? (line :: rest) with
    | some strategy => (parser.sectionContext id).docstrings strategy rest
    | none => []

def docstringsFrom (describe : Block → Block) (started : Bool) (lines : Block) : List Block :=
  match lines with
  | [] => []
  | line :: rest =>
    let written := parser.step describe started (line :: rest)
    parser.sectionDocstrings (line :: rest) ++
      docstringsFrom describe (started || !written.1.isEmpty) written.2
termination_by lines.length
decreasing_by exact length_step_lt parser describe started line rest

/-- The docstrings that are written out on the way when lines are. -/
def docstringsIn (describe : Block → Block) (lines : Block) : List Block :=
  parser.docstringsFrom describe (!(Block.leadingBlanks lines).isEmpty) (Block.skipBlanks lines)

variable {parser} {describe describe' : Block → Block}

theorem length_sectionDocstrings_lt {lines inner : Block}
    (member : inner ∈ parser.sectionDocstrings lines) : inner.length < lines.length := by
  cases lines with
  | nil => cases member
  | cons line rest =>
    simp only [sectionDocstrings] at member
    split at member
    · exact Nat.lt_succ_of_le (SectionContext.length_docstrings_le member)
    · cases member

theorem length_docstringsFrom_lt {started : Bool} {lines : Block} :
    ∀ inner ∈ parser.docstringsFrom describe started lines, inner.length < lines.length := by
  fun_induction parser.docstringsFrom describe started lines with
  | case1 => simp
  | case2 started line rest written ih =>
    have shorter : written.2.length < (line :: rest).length :=
      length_step_lt parser describe started line rest
    intro inner member
    rcases List.mem_append.mp member with member | member
    · exact length_sectionDocstrings_lt member
    · exact Nat.lt_trans (ih inner member) shorter

theorem length_docstringsIn_lt {lines inner : Block}
    (member : inner ∈ parser.docstringsIn describe lines) : inner.length < lines.length :=
  Nat.lt_of_lt_of_le (length_docstringsFrom_lt inner member) (Block.length_skipBlanks_le lines)

theorem step_congr {started : Bool} {lines : Block}
    (agree : ∀ inner ∈ parser.sectionDocstrings lines, describe inner = describe' inner) :
    parser.step describe started lines = parser.step describe' started lines := by
  cases lines with
  | nil => rfl
  | cons line rest =>
    simp only [step, sectionDocstrings] at agree ⊢
    split
    · rename_i strategy header
      rw [header] at agree
      exact (parser.sectionContext describe).write_congr agree _
    · rfl

theorem runFrom_congr {started : Bool} {lines : Block}
    (agree : ∀ inner ∈ parser.docstringsFrom describe started lines,
      describe inner = describe' inner) :
    parser.runFrom describe started lines = parser.runFrom describe' started lines := by
  fun_induction parser.runFrom describe started lines with
  | case1 => rw [runFrom]
  | case2 started line rest written ih =>
    rw [docstringsFrom] at agree
    have same : written = parser.step describe' started (line :: rest) :=
      step_congr fun inner member => agree inner (List.mem_append_left _ member)
    rw [runFrom, ← same, ih fun inner member => agree inner (List.mem_append_right _ member)]

/-- What lines are written as depends on the docstrings inside only through what they are written
as. -/
theorem run_congr {lines : Block}
    (agree : ∀ inner ∈ parser.docstringsIn describe lines, describe inner = describe' inner) :
    parser.run describe lines = parser.run describe' lines := by
  simp only [run, runFrom_congr agree]

theorem run_congr_of_shorter {lines : Block}
    (agree : ∀ inner, inner.length < lines.length → describe inner = describe' inner) :
    parser.run describe lines = parser.run describe' lines :=
  run_congr fun inner member => agree inner (length_docstringsIn_lt member)

theorem parseNested_congr {depth depth' : Nat} {lines : Block} (h : lines.length < depth)
    (h' : lines.length < depth') :
    parser.parseNested depth lines = parser.parseNested depth' lines := by
  induction depth generalizing depth' lines with
  | zero => exact absurd h (Nat.not_lt_zero _)
  | succ depth ih =>
    cases depth' with
    | zero => exact absurd h' (Nat.not_lt_zero _)
    | succ depth' =>
      rw [parseNested, parseNested, LineCursor.toList_ofLines]
      apply run_congr_of_shorter
      intro inner shorter
      rw [List.length_map] at shorter
      exact ih (by omega) (by omega)

theorem parseLines_eq_run (parser : Parser) (lines : Block) :
    parser.parseLines lines = parser.run parser.parseLines (lines.map Text.trimEnd) := by
  rw [parseLines, parseNested, LineCursor.toList_ofLines]
  apply run_congr_of_shorter
  intro inner shorter
  rw [List.length_map] at shorter
  exact parseNested_congr shorter (Nat.lt_succ_self _)

end Parser

end DocMarkup
