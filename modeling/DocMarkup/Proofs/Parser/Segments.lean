import DocMarkup.Proofs.Parser.Opening
import DocMarkup.Proofs.Section.Extent
import DocMarkup.Proofs.Text.Trim
import Mathlib.Data.List.DropRight
import Mathlib.Data.List.Infix

namespace DocMarkup

inductive Segment where
  | text (lines : Block)
  | headed (header : Text) (body : Block)
  deriving DecidableEq

namespace Segment

def lines : Segment → Block
  | text lines => lines
  | headed header body => header :: body

def body : Segment → Block
  | text _ => []
  | headed _ body => body

def opensAt (registry : Registry) (lines : Block) : Bool := (registry.headerAt? lines).isSome

/-- A body whose first content is indented by `n` ends in front of the next header and in front of
content that is indented less. -/
def endsBodyAt (registry : Registry) (n : Nat) : Block → Bool
  | [] => true
  | line :: rest => opensAt registry (line :: rest) || (line ≠ [] && line.indent < n)

/-- The segments of a docstring from top to bottom. -/
def ofLines (registry : Registry) (lines : Block) : List Segment :=
  match lines with
  | [] => []
  | line :: rest =>
    if opensAt registry (line :: rest) then
      let parts := cutBefore (endsBodyAt registry (Block.leadingIndent rest)) rest
      headed line parts.1 :: ofLines registry parts.2
    else
      let parts := cutBefore (opensAt registry) rest
      text (line :: parts.1) :: ofLines registry parts.2
termination_by lines.length
decreasing_by
  · exact Nat.lt_succ_of_le (length_cutBefore_le _ _)
  · exact Nat.lt_succ_of_le (length_cutBefore_le _ _)

def bodyLines (registry : Registry) (lines : Block) : Block :=
  (ofLines registry lines).flatMap body

variable {registry : Registry}

theorem flatMap_lines_ofLines (registry : Registry) (lines : Block) :
    (ofLines registry lines).flatMap Segment.lines = lines := by
  fun_induction ofLines registry lines with
  | case1 => rfl
  | case2 line rest _ parts ih =>
    rw [List.flatMap_cons, ih, Segment.lines, List.cons_append]
    exact congrArg _ (cutBefore_append _ _)
  | case3 line rest _ parts ih =>
    rw [List.flatMap_cons, ih, Segment.lines, List.cons_append]
    exact congrArg _ (cutBefore_append _ _)

theorem ofLines_nil : ofLines registry [] = [] := by
  rw [ofLines]

theorem ofLines_text {line : Text} {rest : Block}
    (h : registry.headerAt? (line :: rest) = none) :
    ∃ more behind, ofLines registry (line :: rest) = text (line :: more) :: behind ∧
      (more = [] ∧ ofLines registry rest = behind ∨ ofLines registry rest = text more :: behind) := by
  have plain : opensAt registry (line :: rest) = false := by simp [opensAt, h]
  refine ⟨_, _, by rw [ofLines, if_neg (by simp [plain])], ?_⟩
  cases rest with
  | nil => exact Or.inl ⟨rfl, rfl⟩
  | cons next rest =>
    by_cases opens : opensAt registry (next :: rest) = true
    · exact Or.inl (by simp [cutBefore, opens])
    · refine Or.inr ?_
      rw [ofLines, if_neg opens]
      simp [cutBefore, opens]

theorem flatMap_ofLines_text {line : Text} {rest : Block} {f : Segment → Block}
    (cons : ∀ line more, f (text (line :: more)) = f (text [line]) ++ f (text more))
    (h : registry.headerAt? (line :: rest) = none) :
    (ofLines registry (line :: rest)).flatMap f =
      f (text [line]) ++ (ofLines registry rest).flatMap f := by
  obtain ⟨more, behind, whole, ⟨rfl, same⟩ | same⟩ := ofLines_text h
  · rw [whole, same, List.flatMap_cons]
  · rw [whole, same, List.flatMap_cons, List.flatMap_cons, cons, List.append_assoc]

/-- None of the lines `taken` in front of `left` is a header. -/
def Headless (registry : Registry) : Block → Block → Prop
  | [], _ => True
  | line :: taken, left =>
    registry.headerAt? (line :: (taken ++ left)) = none ∧ Headless registry taken left

theorem headless_cutBefore {stop : Block → Bool}
    (stops : ∀ lines, opensAt registry lines = true → stop lines = true) (lines : Block) :
    Headless registry (cutBefore stop lines).1 (cutBefore stop lines).2 := by
  induction lines with
  | nil => exact trivial
  | cons line rest ih =>
    by_cases ends : stop (line :: rest) = true
    · simp [cutBefore, ends, Headless]
    · have plain : opensAt registry (line :: rest) = false := by
        rw [Bool.eq_false_iff]
        exact fun opens => ends (stops _ opens)
      simp only [cutBefore, ends, Bool.false_eq_true, ↓reduceIte]
      refine ⟨?_, ih⟩
      rw [cutBefore_append]
      simpa [opensAt] using plain

theorem headless_of_forall {lines : Block}
    (plain : ∀ rest, rest <:+ lines → registry.headerAt? rest = none) :
    Headless registry lines [] := by
  induction lines with
  | nil => exact trivial
  | cons line rest ih =>
    refine ⟨?_, ih fun rest' suffix => plain rest' (suffix.trans (List.suffix_cons _ _))⟩
    rw [List.append_nil]
    exact plain _ List.suffix_rfl

theorem headless_leadingBlanks (lines : Block) :
    Headless registry (Block.leadingBlanks lines) (Block.skipBlanks lines) := by
  induction lines with
  | nil => exact trivial
  | cons line rest ih =>
    by_cases blank : line = []
    · subst blank
      exact ⟨Registry.headerAt?_blank _, ih⟩
    · simp [Block.leadingBlanks, blank, Headless]

theorem headless_append {taken more left : Block} (h : Headless registry taken (more ++ left))
    (h' : Headless registry more left) : Headless registry (taken ++ more) left := by
  induction taken with
  | nil => exact h'
  | cons line taken ih => exact ⟨by simpa using h.1, ih h.2⟩

theorem flatMap_ofLines_headless {taken left : Block} {f : Segment → Block}
    (nil : f (text []) = [])
    (cons : ∀ line more, f (text (line :: more)) = f (text [line]) ++ f (text more))
    (h : Headless registry taken left) :
    (ofLines registry (taken ++ left)).flatMap f =
      f (text taken) ++ (ofLines registry left).flatMap f := by
  induction taken with
  | nil => rw [nil, List.nil_append, List.nil_append]
  | cons line taken ih =>
    rw [List.cons_append, flatMap_ofLines_text cons h.1, ih h.2, cons line taken, List.append_assoc]

theorem endsBodyAt_eq {line : Text} (solid : line.Solid) (n : Nat) (rest : Block) :
    endsBodyAt registry n (line :: rest) = (⟨registry, some n⟩ : Scope).endsAt (line :: rest) := by
  by_cases blank : line = []
  · simp [endsBodyAt, opensAt, Scope.endsAt, Scope.leaves, blank]
  · have indented : line.isIndented n = true ↔ n ≤ line.indent := solid.isIndented_iff blank
    rw [Bool.eq_iff_iff]
    simp [endsBodyAt, opensAt, Scope.endsAt, Scope.leaves, blank, ← Bool.not_eq_true, indented]

theorem isBody_of_cutBefore {line : Text} {rest body left : Block}
    (solid : ∀ line ∈ rest, line.Solid) (opens : opensAt registry (line :: rest) = true)
    (cut : cutBefore (endsBodyAt registry (Block.leadingIndent rest)) rest = (body, left)) :
    body ++ left = rest ∧ body.IsBody ∧ body.leadingIndent = Block.leadingIndent rest ∧
      (⟨registry, some body.leadingIndent⟩ : Scope).endsAt left = true := by
  obtain ⟨strategy, header⟩ := Option.isSome_iff_exists.mp opens
  have indented := (Registry.indent_of_headerAt? header).2
  have whole : body ++ left = rest := by
    have := cutBefore_append (endsBodyAt registry (Block.leadingIndent rest)) rest
    rwa [cut] at this
  have inside : ∀ other ∈ body, other ≠ [] → Block.leadingIndent rest ≤ other.indent := by
    intro other member content
    have member' : other ∈ (cutBefore (endsBodyAt registry (Block.leadingIndent rest)) rest).1 := by
      rwa [cut]
    obtain ⟨behind, continues⟩ := continues_of_mem_cutBefore member'
    simp only [endsBodyAt, Bool.or_eq_false_iff, Bool.and_eq_false_iff] at continues
    simpa [content] using continues.2
  have stops : left ≠ [] → endsBodyAt registry (Block.leadingIndent rest) left = true := by
    intro nonempty
    have ends : (cutBefore (endsBodyAt registry (Block.leadingIndent rest)) rest).2 ≠ [] →
        endsBodyAt registry (Block.leadingIndent rest) _ = true := stop_cutBefore
    rw [cut] at ends
    exact ends nonempty
  -- A body without content would end in front of the first content, which is indented enough.
  have content : ∃ other ∈ body, other ≠ [] := by
    refine Decidable.byContradiction fun blank => ?_
    have all : ∀ other ∈ body, other = [] := by simpa using blank
    have same := Block.leadingIndent_append_of_blank all left
    rw [whole] at same
    rw [same] at indented stops
    cases left with
    | nil => exact absurd indented (Nat.lt_irrefl 0)
    | cons other left =>
      have ends := stops (by simp)
      by_cases empty : other = []
      · subst empty
        simp [endsBodyAt, opensAt, Registry.headerAt?_blank] at ends
      · have first : Block.leadingIndent (other :: left) = other.indent := by
          simp [Block.leadingIndent, empty]
        rw [first] at indented ends
        simp [endsBodyAt, opensAt, Registry.headerAt?_of_indented indented] at ends
  have same : body.leadingIndent = Block.leadingIndent rest := by
    rw [← whole, Block.leadingIndent_append_of_content content]
  refine ⟨whole, ⟨same ▸ indented, ?_, same ▸ inside⟩, same, ?_⟩
  · exact fun other member => solid other (whole ▸ List.mem_append_left left member)
  · rw [same]
    cases left with
    | nil => rfl
    | cons other left =>
      rw [← endsBodyAt_eq (solid other (whole ▸ by simp))]
      exact stops (by simp)

end Segment

namespace Parser

open Segment

variable (parser : Parser) (describe : Block → Block)

/-- A segment written out on its own. -/
def renderSegment : Segment → Block
  | .text lines => lines
  | .headed header body => parser.parseLines (header :: body)

def runSegment : Segment → Block
  | .text lines => lines
  | .headed header body => parser.run describe (header :: body)

theorem takeText_headless (started : Bool) {line : Text} {rest taken left : Block}
    (content : line ≠ []) (text : parser.takeText started (line :: rest) = (taken, left)) :
    taken ++ left = line :: rest ∧ Headless parser.registry taken left ∧
      Block.skipBlanks left = left := by
  obtain ⟨stop, stops, parts⟩ : ∃ stop : Block → Bool,
      (∀ lines, opensAt parser.registry lines = true → stop lines = true) ∧
      parser.takeText started (line :: rest) =
        ((cutBefore stop (line :: rest)).1 ++
            Block.leadingBlanks (cutBefore stop (line :: rest)).2,
          Block.skipBlanks (cutBefore stop (line :: rest)).2) := by
    cases started with
    | false =>
      refine ⟨parser.endsParagraphAt, fun lines opens => ?_, rfl⟩
      cases lines with
      | nil => rfl
      | cons line rest => exact Bool.or_eq_true_iff.mpr (Or.inr opens)
    | true =>
      refine ⟨(⟨parser.registry, none⟩ : Scope).endsAt, fun lines opens => ?_, ?_⟩
      · cases lines with
        | nil => rfl
        | cons line rest => exact Bool.or_eq_true_iff.mpr (Or.inl opens)
      · have same : Block.skipBlanks (line :: rest) = line :: rest := by
          simp [Block.skipBlanks, content]
        simp only [takeText, ↓reduceIte, Scope.takeAll, same]
  rw [parts] at text
  obtain ⟨rfl, rfl⟩ := Prod.mk.inj text
  refine ⟨?_, headless_append ?_ (headless_leadingBlanks _), List.dropWhile_idempotent _ _⟩
  · rw [List.append_assoc, Block.leadingBlanks_append_skipBlanks, cutBefore_append]
  · rw [Block.leadingBlanks_append_skipBlanks]
    exact headless_cutBefore stops _

theorem run_section {line : Text} {body : Block} {strategy : Strategy}
    (header : parser.registry.headerAt? (line :: body) = some strategy) (isBody : body.IsBody) :
    parser.run describe (line :: body) =
      ((parser.sectionContext describe).write strategy line.headerTitle body).1 := by
  have nothing := SectionContext.write_left (parser.sectionContext describe) isBody strategy
    line.headerTitle
  rw [parser.run_header describe header, runAs, nothing, runFrom, List.append_nil]

theorem runFrom_eq_segments (started : Bool) {lines : Block}
    (solid : ∀ line ∈ lines, line.Solid) (content : Block.skipBlanks lines = lines)
    (whole : ∀ line ∈ bodyLines parser.registry lines, Wrapped.isStart line = false) :
    parser.runFrom describe started lines =
      (ofLines parser.registry lines).flatMap (parser.runSegment describe) := by
  fun_induction parser.runFrom describe started lines with
  | case1 => rw [ofLines_nil, List.flatMap_nil]
  | case2 started line rest written ih =>
    have nonempty : line ≠ [] := by
      rintro rfl
      have shorter : (Block.skipBlanks ([] :: rest)).length < ([] :: rest).length :=
        Block.length_skipBlanks_lt rfl
      rw [content] at shorter
      exact absurd shorter (Nat.lt_irrefl _)
    cases header : parser.registry.headerAt? (line :: rest) with
    | none =>
      obtain ⟨taken, left, text⟩ : ∃ taken left,
          parser.takeText started (line :: rest) = (taken, left) := ⟨_, _, rfl⟩
      obtain ⟨parts, headless, skipped⟩ := parser.takeText_headless started nonempty text
      have step : written = (taken, left) := by simp only [written, step, header, text]
      rw [step] at ih ⊢
      rw [← parts] at solid whole ⊢
      rw [bodyLines, flatMap_ofLines_headless rfl (fun _ _ => rfl) headless] at whole
      rw [ih (fun line member => solid line (List.mem_append_right taken member)) skipped whole,
        flatMap_ofLines_headless rfl (fun _ _ => rfl) headless]
      rfl
    | some strategy =>
      obtain ⟨body, left, cut⟩ : ∃ body left,
          cutBefore (endsBodyAt parser.registry (Block.leadingIndent rest)) rest = (body, left) :=
        ⟨_, _, rfl⟩
      have opens : opensAt parser.registry (line :: rest) = true := by simp [opensAt, header]
      obtain ⟨parts, isBody, indent, ends⟩ :=
        isBody_of_cutBefore (fun line member => solid line (List.mem_cons_of_mem _ member)) opens cut
      have segments : ofLines parser.registry (line :: rest) =
          .headed line body :: ofLines parser.registry left := by
        rw [ofLines, if_pos opens]
        simp only [cut]
      rw [bodyLines, segments, List.flatMap_cons] at whole
      have alone : parser.registry.headerAt? (line :: body) = some strategy :=
        header ▸ Registry.headerAt?_congr indent
      have step : written =
          (((parser.sectionContext describe).write strategy line.headerTitle body).1, left) := by
        simp only [written, step, header]
        rw [← parts]
        exact SectionContext.write_append (parser.sectionContext describe) isBody
          (fun line member => whole line (List.mem_append_left _ member)) ends strategy _
      rw [step] at ih ⊢
      rw [ih (fun line member => solid line (by simp [← parts, member]))
          (Scope.skipBlanks_of_endsAt ends).1
          (fun line member => whole line (List.mem_append_right _ member)),
        segments, List.flatMap_cons, runSegment, parser.run_section describe alone isBody]

/-- A docstring is written segment by segment, where the lines of its sections hold no wrapped
header. -/
theorem run_eq_segments {lines : Block} (solid : ∀ line ∈ lines, line.Solid)
    (whole : ∀ line ∈ bodyLines parser.registry lines, Wrapped.isStart line = false) :
    parser.run describe lines =
      (ofLines parser.registry lines).flatMap (parser.runSegment describe) := by
  have parts := Block.leadingBlanks_append_skipBlanks lines
  have headless : Headless parser.registry (Block.leadingBlanks lines) (Block.skipBlanks lines) :=
    headless_leadingBlanks lines
  rw [← parts, bodyLines, flatMap_ofLines_headless rfl (fun _ _ => rfl) headless] at whole
  have below : ∀ line ∈ Block.skipBlanks lines, line.Solid :=
    fun line member => solid line (Block.skipBlanks_subset lines member)
  have skipped : Block.skipBlanks (Block.skipBlanks lines) = Block.skipBlanks lines :=
    List.dropWhile_idempotent _ _
  have behind := parser.runFrom_eq_segments describe (!(Block.leadingBlanks lines).isEmpty)
    below skipped whole
  have all := flatMap_ofLines_headless (f := parser.runSegment describe) rfl (fun _ _ => rfl) headless
  rw [parts] at all
  rw [run, behind, all]
  rfl

theorem flatMap_runSegment {lines : Block} (trimmed : ∀ line ∈ lines, line.trimEnd = line) :
    (ofLines parser.registry lines).flatMap (parser.runSegment parser.parseLines) =
      (ofLines parser.registry lines).flatMap parser.renderSegment := by
  rw [List.flatMap_def, List.flatMap_def]
  refine congrArg List.flatten (List.map_congr_left fun segment member => ?_)
  have inside : ∀ line ∈ segment.lines, line.trimEnd = line := by
    intro line inside
    apply trimmed
    rw [← flatMap_lines_ofLines parser.registry lines]
    exact List.mem_flatMap.mpr ⟨segment, member, inside⟩
  cases segment with
  | text lines => rfl
  | headed header body =>
    have same : (header :: body).map Text.trimEnd = header :: body :=
      (List.map_congr_left inside).trans (List.map_id' _)
    rw [renderSegment, parseLines_eq_run, same, runSegment]

/-- A docstring comes out segment by segment: text as its lines, without blanks at their ends, and
each section as it comes out alone. It is assumed that no section holds a wrapped header. -/
theorem parseLines_eq_segments (lines : Block) :
    let trimmed := lines.map Text.trimEnd
    let segments := Segment.ofLines parser.registry trimmed
    segments.flatMap Segment.lines = trimmed ∧
      ((∀ line ∈ Segment.bodyLines parser.registry trimmed, Wrapped.isStart line = false) →
        parser.parseLines lines = segments.flatMap parser.renderSegment) ∧
      ((∀ rest, rest <:+ trimmed → parser.registry.headerAt? rest = none) →
        parser.parseLines lines = trimmed) := by
  intro trimmed segments
  have solid : ∀ line ∈ trimmed, line.Solid := by
    intro line member
    obtain ⟨raw, -, rfl⟩ := List.mem_map.mp member
    exact Text.solid_trimEnd raw
  have fixed : ∀ line ∈ trimmed, line.trimEnd = line := by
    intro line member
    obtain ⟨raw, -, rfl⟩ := List.mem_map.mp member
    exact Text.trimEnd_trimEnd raw
  have rendered : (∀ line ∈ Segment.bodyLines parser.registry trimmed,
      Wrapped.isStart line = false) →
      parser.parseLines lines = segments.flatMap parser.renderSegment := by
    intro whole
    rw [parseLines_eq_run, parser.run_eq_segments parser.parseLines solid whole,
      parser.flatMap_runSegment fixed]
  refine ⟨Segment.flatMap_lines_ofLines _ _, rendered, fun plain => ?_⟩
  have headless := Segment.headless_of_forall plain
  have text := flatMap_ofLines_headless (f := parser.renderSegment) rfl (fun _ _ => rfl) headless
  have bare := flatMap_ofLines_headless (f := Segment.body) rfl (fun _ _ => rfl) headless
  rw [List.append_nil, Segment.ofLines_nil, List.flatMap_nil, List.append_nil] at text bare
  rw [rendered (by simp [Segment.bodyLines, bare, Segment.body]), text, renderSegment]

def sampleDocstring : Block :=
  ["Summary.  ", "", "Args:", "    x (int):", "        The x.", "", "Details.", "", "Note:",
    "  Mind the gap.", "More."]

theorem parseLines_sampleDocstring :
    Segment.ofLines google.registry (sampleDocstring.map Text.trimEnd) =
        [.text ["Summary.", ""], .headed "Args:" ["    x (int):", "        The x.", ""],
          .text ["Details.", ""], .headed "Note:" ["  Mind the gap."], .text ["More."]] ∧
      (∀ line ∈ Segment.bodyLines google.registry (sampleDocstring.map Text.trimEnd),
        Wrapped.isStart line = false) ∧
      google.parseLines sampleDocstring =
        (Segment.ofLines google.registry (sampleDocstring.map Text.trimEnd)).flatMap
          google.renderSegment ∧
      (∀ rest : Block, rest <:+ ["Args:", "none"] → google.registry.headerAt? rest = none) ∧
      google.parseLines ["Args:  ", "none "] = ["Args:", "none"] := by
  have segments : Segment.ofLines google.registry (sampleDocstring.map Text.trimEnd) =
      [.text ["Summary.", ""], .headed "Args:" ["    x (int):", "        The x.", ""],
        .text ["Details.", ""], .headed "Note:" ["  Mind the gap."], .text ["More."]] := by
    decide +kernel
  have whole : ∀ line ∈ Segment.bodyLines google.registry (sampleDocstring.map Text.trimEnd),
      Wrapped.isStart line = false := by
    rw [Segment.bodyLines, segments]
    decide +kernel
  have plain : ∀ rest : Block, rest <:+ ["Args:", "none"] →
      google.registry.headerAt? rest = none := by
    intro rest suffix
    have all : ∀ rest ∈ (["Args:", "none"] : Block).tails,
        google.registry.headerAt? rest = none := by
      decide +kernel
    exact all rest ((List.mem_tails _ _).mpr suffix)
  exact ⟨segments, whole, (google.parseLines_eq_segments sampleDocstring).2.1 whole, plain,
    (google.parseLines_eq_segments ["Args:  ", "none "]).2.2 plain⟩

end Parser

end DocMarkup
