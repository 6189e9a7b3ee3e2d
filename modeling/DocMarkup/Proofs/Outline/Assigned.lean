import DocMarkup.Proofs.Outline.Chained
import DocMarkup.Proofs.Outline.Code
import DocMarkup.Proofs.Outline.Opaque

namespace DocMarkup

namespace SourceState

theorem eq_of_atStart {state : SourceState} (start : state.atStart = true) :
    state = ⟨0, none, false⟩ := by
  obtain ⟨depth, literal, continued⟩ := state
  simp only [atStart, Bool.and_eq_true, beq_iff_eq, Option.isNone_iff_eq_none,
    Bool.not_eq_true'] at start
  rw [start.1.1, start.1.2, start.2]

theorem scan_inert_append {before : Text} (inert : ∀ c ∈ before, IsInert c) (depth : Nat)
    (line : Text) : scan 0 depth none (before ++ line) = scan 0 depth none line := by
  induction before with
  | nil => rfl
  | cons c before ih =>
    rw [List.cons_append, scan_inert (inert c List.mem_cons_self)]
    exact ih fun d member => inert d (List.mem_cons_of_mem _ member)

end SourceState

def assigned (name value : Text) : Text := name ++ ' ' :: '=' :: ' ' :: value

variable {name : Text} (named : isIdentifier name = true)

include named

theorem margin_name_append (rest : Text) : Text.margin (name ++ rest) = [] := by
  cases name with
  | nil => cases named
  | cons c name =>
    have word := Assignment.isWord_of_isIdentifier named c List.mem_cons_self
    exact Text.margin_cons_of_content (isBlank_of_isWord word) _

namespace Assignment

theorem trim_name_append : Text.trim (name ++ [' ']) = name := by
  have blank : Text.IsMargin [' '] := Text.isMargin_spaces 1
  rw [Text.trim_append_blanks blank]
  apply Text.trim_eq_self
  · have flush := margin_name_append named []
    rwa [List.append_nil] at flush
  · rw [Text.trimEnd_eq_self_iff]
    intro c last
    exact isBlank_of_isWord (isWord_of_isIdentifier named c (List.mem_of_getLast? last))

theorem cut?_assigned (value : Text) :
    cut? (assigned name value) = some (name ++ [' '], ' ' :: value) := by
  have same : assigned name value = (name ++ [' ']) ++ '=' :: (' ' :: value) := by
    unfold assigned
    rw [List.append_assoc]
    rfl
  rw [same]
  apply cut?_of_isIdentifier
  · rw [trim_name_append named]
    exact named
  · intro same
    exact absurd (Option.some.inj same) (by decide)

theorem split_assigned (value : Text) :
    split (assigned name value) = (name :: targets (' ' :: value), (split (' ' :: value)).2) := by
  rw [split_of_cut (cut?_assigned named value), trim_name_append named, if_pos named]
  rfl

end Assignment

namespace StatementKind

theorem ofText_assigned (value : Text) :
    ofText (assigned name value) = .assignment (name :: Assignment.targets (' ' :: value)) := by
  have trimmed := Assignment.trim_name_append named
  have bare : (' ' :: value).head? ≠ some '=' :=
    fun same => absurd (Option.some.inj same) (by decide)
  have kind := ofText_target (by rw [trimmed]; exact named) (margin_name_append named [' ']) bare
  rw [trimmed, List.append_assoc] at kind
  exact kind

end StatementKind

omit named in
theorem assigned_eq_append (name value : Text) : assigned name value = assigned name [] ++ value := by
  unfold assigned
  rw [List.append_assoc]
  rfl

theorem isInert_of_mem_assigned {c : Char} (member : c ∈ assigned name []) : IsInert c := by
  unfold assigned at member
  rcases List.mem_append.mp member with member | member
  · exact isInert_of_isWord (Assignment.isWord_of_isIdentifier named c member)
  · simp only [List.mem_cons, List.not_mem_nil, or_false] at member
    rcases member with rfl | rfl | rfl <;> constructor <;> rfl

theorem onLine_assigned (value : Text) : Text.OnLine (assigned name []) value := by
  constructor
  · unfold assigned
    intro member
    rcases List.mem_append.mp member with member | member
    · have word := Assignment.isWord_of_isIdentifier named _ member
      cases word
    · simp at member
  · intro last
    unfold assigned at last
    rw [List.getLast?_append] at last
    exact absurd (Option.some.inj last) (by decide)

theorem cutLine_assigned (value : Text) :
    Text.cutLine (assigned name value) =
      (assigned name (Text.cutLine value).1, (Text.cutLine value).2) := by
  rw [assigned_eq_append name value, Text.cutLine_append (onLine_assigned named value),
    ← assigned_eq_append]

theorem lines_assigned {before : Text} (ends : before.EndsLine) (value : Text) :
    Text.lines (before ++ assigned name value) =
      before.lines ++
        assigned name (Text.cutLine value).1 :: Text.lines (Text.cutLine value).2 := by
  have more : assigned name value ≠ [] := by
    unfold assigned
    exact List.append_ne_nil_of_right_ne_nil name (List.cons_ne_nil _ _)
  rw [Text.lines_append ends, Text.lines_eq_cutLine more, cutLine_assigned named]

theorem margin_assigned (value : Text) : Text.margin (assigned name value) = [] :=
  margin_name_append named _

namespace Statement

theorem hasCode_assigned (value : Text) : hasCode (assigned name value) = true := by
  unfold hasCode
  rw [Text.trimStart_eq_self (margin_assigned named value)]
  cases name with
  | nil => cases named
  | cons c rest =>
    have word := Assignment.isWord_of_isIdentifier named c List.mem_cons_self
    show (c != '#') = true
    rw [bne, (isInert_of_isWord word).hash]
    rfl

theorem ofLine_assigned (number : Nat) (value : Text) :
    ofLine number (assigned name value) = ⟨number, 0, assigned name value⟩ := by
  unfold ofLine
  rw [margin_assigned named, Text.trimStart_eq_self (margin_assigned named value)]
  rfl

theorem startsBehindCode_assigned (number depth : Nat) (value : Text) :
    startsBehindCode number depth (assigned name value) = startsBehindCode number depth value := by
  rw [assigned_eq_append]
  apply startsBehindCode_append (onLine_assigned named value)
  exact SourceState.scan_inert_append (fun c member => isInert_of_mem_assigned named member) depth _

/-- A line that assigns to a name where a statement may start is a statement at the top level. -/
theorem starts_assigned {before : Text} (ends : before.EndsLine)
    (start : (before.lines.foldl SourceState.next {}).atStart = true) (value : Text) :
    starts (before ++ assigned name value) =
      starts before ++
        ⟨before.count '\n' + 1, 0, assigned name (Text.cutLine value).1⟩ ::
          startsBehindCode (before.count '\n' + 2) 0 value := by
  have state := SourceState.eq_of_atStart start
  have behind := startsBehindCode_assigned named (before.count '\n' + 2) 0 value
  unfold startsBehindCode at behind
  rw [cutLine_assigned named] at behind
  unfold starts
  rw [lines_assigned named ends, startsFrom_append, Text.length_lines ends, state, startsFrom,
    hasCode_assigned named, ofLine_assigned named, Nat.add_comm 1]
  show _ ++ ([_] ++ _) = _
  exact congrArg _ (congrArg _ behind)

end Statement

namespace Outline

theorem ofSource_assigned {before : Text} (ends : before.EndsLine)
    (start : (before.lines.foldl SourceState.next {}).atStart = true) (value : Text) :
    ∃ node later,
      ofSource (before ++ assigned name value) = ofSource before ++ node :: later ∧
      node.line = before.count '\n' + 1 ∧
      node.kind =
        .assignment (name :: Assignment.targets (' ' :: (Text.cutLine value).1)) ∧
      ∀ root ∈ later, ∃ s ∈ Statement.startsBehindCode (before.count '\n' + 2) 0 value,
        root.line = s.line := by
  rw [ofSource, Statement.starts_assigned named ends start, ofStatements_append_of_flush rfl,
    ofStatements]
  refine ⟨_, _, rfl, rfl, StatementKind.ofText_assigned named _, ?_⟩
  intro root member
  obtain ⟨s, behind, same⟩ := exists_statement_of_mem_placed (mem_placed_of_mem member none)
  exact ⟨s, (List.dropWhile_suffix _).subset behind, line_eq_of_heading same⟩

end Outline

end DocMarkup
