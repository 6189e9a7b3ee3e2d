import DocMarkup.Proofs.Text.Trim
import DocMarkup.Section.Basic
import Mathlib.Data.List.Forall2

namespace DocMarkup

namespace Text

def isFlushLeft (line : Text) : Bool := line.head?.any fun c => !isBlank c

/-- The line is the marker, or goes on behind it after a space. -/
def Marks (marker line : Text) : Prop := line = marker ∨ ∃ rest, line = marker ++ ' ' :: rest

structure IsMarker (text : Text) : Prop where
  flush : text.isFlushLeft = true
  ends : text.trimEnd = text

theorem ne_nil_of_isFlushLeft {line : Text} (flush : line.isFlushLeft = true) : line ≠ [] := by
  rintro rfl
  cases flush

theorem isFlushLeft_append {start : Text} (nonempty : start ≠ []) (rest : Text) :
    (start ++ rest).isFlushLeft = start.isFlushLeft := by
  obtain ⟨c, start, rfl⟩ := List.exists_cons_of_ne_nil nonempty
  rfl

theorem isFlushLeft_append_of_space {padding : Text} (space : padding.head? = some ' ')
    (line : Text) : (padding ++ line).isFlushLeft = false := by
  obtain ⟨padding, rfl⟩ := List.head?_eq_some_iff.mp space
  rfl

theorem isFlushLeft_trimEnd (line : Text) : line.trimEnd.isFlushLeft = line.isFlushLeft := by
  obtain ⟨blanks, eq, blank⟩ := exists_trimEnd_append line
  by_cases empty : line.trimEnd = []
  · rw [empty, List.nil_append] at eq
    rw [empty, ← eq]
    cases blanks with
    | nil => rfl
    | cons c blanks => simp [isFlushLeft, blank c List.mem_cons_self]
  · rw [← isFlushLeft_append empty blanks, eq]

theorem isFlushLeft_of_marks {marker line : Text} (flush : marker.isFlushLeft = true)
    (marks : marker.Marks line) : line.isFlushLeft = true := by
  rcases marks with rfl | ⟨rest, rfl⟩
  · exact flush
  · rw [isFlushLeft_append (ne_nil_of_isFlushLeft flush), flush]

theorem IsMarker.marks_trimEnd {marker : Text} (isMarker : marker.IsMarker) (rest : Text) :
    marker.Marks (trimEnd (marker ++ ' ' :: rest)) := by
  rw [trimEnd_append_left isMarker.ends]
  by_cases empty : rest.trimEnd = []
  · left
    obtain ⟨blanks, eq, blank⟩ := exists_trimEnd_append rest
    rw [empty, List.nil_append] at eq
    have all : IsMargin (' ' :: rest) := by
      intro c member
      rcases List.mem_cons.mp member with rfl | inside
      · decide
      · exact blank c (eq ▸ inside)
    have gone := trimEnd_append all []
    rw [List.nil_append] at gone
    rw [gone]
    exact List.append_nil marker
  · right
    exact ⟨rest.trimEnd, congrArg (marker ++ ·) (trimEnd_append_of_trimEnd_ne_nil empty [' '])⟩

end Text

namespace Block

def flushLeft (lines : Block) : Block := lines.filter Text.isFlushLeft

/-- The lines at the left margin are those of the markers, in their order. -/
def MarkedBy (lines : Block) (markers : List Text) : Prop :=
  List.Forall₂ Text.Marks markers lines.flushLeft

theorem markedBy_nil : MarkedBy [] [] := List.Forall₂.nil

theorem MarkedBy.append {lines lines' : Block} {markers markers' : List Text}
    (front : lines.MarkedBy markers) (back : lines'.MarkedBy markers') :
    MarkedBy (lines ++ lines') (markers ++ markers') := by
  rw [MarkedBy, flushLeft, List.filter_append]
  exact List.rel_append front back

theorem MarkedBy.cons {lines : Block} {markers : List Text} {marker line : Text}
    (flush : marker.isFlushLeft = true) (marks : marker.Marks line) (rest : lines.MarkedBy markers) :
    MarkedBy (line :: lines) (marker :: markers) := by
  rw [MarkedBy, flushLeft, List.filter_cons_of_pos (Text.isFlushLeft_of_marks flush marks)]
  exact List.Forall₂.cons marks rest

theorem markedBy_of_indented {lines : Block}
    (indented : ∀ line ∈ lines, line.isFlushLeft = false) : MarkedBy lines [] := by
  have nothing : lines.flushLeft = [] :=
    List.filter_eq_nil_iff.mpr fun line member => by simp [indented line member]
  rw [MarkedBy, nothing]
  exact List.Forall₂.nil

theorem MarkedBy.append_indented {lines lines' : Block} {markers : List Text}
    (front : lines.MarkedBy markers) (back : lines'.MarkedBy []) :
    MarkedBy (lines ++ lines') markers := by
  have both := front.append back
  rwa [List.append_nil] at both

theorem markedBy_blank : MarkedBy [[]] [] :=
  markedBy_of_indented fun _ member => List.mem_singleton.mp member ▸ rfl

theorem markedBy_shift (n : Nat) (lines : Block) : MarkedBy (shift (n + 1) lines) [] := by
  refine markedBy_of_indented fun line member => ?_
  obtain ⟨inner, -, rfl⟩ := List.mem_map.mp member
  exact Text.isFlushLeft_append_of_space rfl inner

theorem markedBy_flatMap {α : Type} {write : α → Block} {markers : α → List Text}
    (each : ∀ item, (write item).MarkedBy (markers item)) (items : List α) :
    MarkedBy (items.flatMap write) (items.flatMap markers) := by
  induction items with
  | nil => exact markedBy_nil
  | cons item items ih =>
    rw [List.flatMap_cons, List.flatMap_cons]
    exact (each item).append ih

theorem all_isEmpty_skipBlanks (lines : Block) :
    (skipBlanks lines).all (·.isEmpty) = lines.all (·.isEmpty) := by
  induction lines with
  | nil => rfl
  | cons line lines ih =>
    by_cases empty : line = []
    · subst empty
      exact ih
    · simp [skipBlanks, empty]

theorem all_isEmpty_stripBlanks (lines : Block) :
    (stripBlanks lines).all (·.isEmpty) = lines.all (·.isEmpty) := by
  rw [stripBlanks, List.all_reverse, all_isEmpty_skipBlanks, List.all_reverse,
    all_isEmpty_skipBlanks]

end Block

namespace Description

open Block

theorem markedBy_padded {padding : Text} (space : padding.head? = some ' ') (lines : Block) :
    MarkedBy (lines.map fun line => if line.isEmpty then [] else padding ++ line) [] := by
  refine markedBy_of_indented fun line member => ?_
  obtain ⟨inner, -, rfl⟩ := List.mem_map.mp member
  split
  · rfl
  · exact Text.isFlushLeft_append_of_space space inner

theorem markedBy_hangWith {marker padding : Text} (isMarker : marker.IsMarker) (gap : Text)
    (space : padding.head? = some ' ') (lines : Block) :
    MarkedBy (hangWith (marker ++ ' ' :: gap) padding lines) [marker] := by
  cases lines with
  | nil => exact markedBy_nil.cons isMarker.flush (Or.inr ⟨gap, rfl⟩)
  | cons first rest =>
    refine (markedBy_padded space rest).cons isMarker.flush ?_
    rw [List.append_assoc]
    exact isMarker.marks_trimEnd (gap ++ first)

theorem markedBy_hang {marker : Text} (isMarker : marker.IsMarker) (gap : Text) (lines : Block) :
    MarkedBy (hang (marker ++ ' ' :: gap) lines) [marker] := by
  refine markedBy_hangWith isMarker gap ?_ lines
  rw [List.length_append, List.length_cons, ← Nat.add_assoc]
  rfl

theorem markedBy_hang_of_space {bullet : Text} (space : bullet.head? = some ' ') (lines : Block) :
    MarkedBy (hang bullet lines) [] := by
  obtain ⟨bullet, rfl⟩ := List.head?_eq_some_iff.mp space
  cases lines with
  | nil => exact markedBy_of_indented fun _ member => List.mem_singleton.mp member ▸ rfl
  | cons first rest =>
    have front : MarkedBy [Text.trimEnd (' ' :: bullet ++ first)] [] := by
      refine markedBy_of_indented fun line member => ?_
      rw [List.mem_singleton.mp member, Text.isFlushLeft_trimEnd]
      rfl
    exact front.append (markedBy_padded rfl rest)

theorem all_isEmpty_place (lines : Block) :
    (place lines).all (·.isEmpty) = lines.all (·.isEmpty) := by
  unfold place
  split
  · rfl
  · cases lines with
    | nil => rfl
    | cons first block =>
      by_cases literal : first.endsWith "::" = true
      · have content : first.isEmpty = false := by
          cases first with
          | nil => exact absurd literal (by decide)
          | cons => rfl
        simp only [literal, Bool.not_true, Bool.false_eq_true, ↓reduceIte]
        split
        · rfl
        · rw [List.all_cons, List.all_cons, content, List.all_cons, content]
          rfl
      · simp only [literal, Bool.not_false, ↓reduceIte]

end Description

theorem Field.all_isEmpty_summary (description : Block) :
    (summary [] [] description).all (·.isEmpty) = description.all (·.isEmpty) := by
  rw [← Block.all_isEmpty_stripBlanks description, summary]
  split
  · rename_i empty
    rw [empty]
    rfl
  · rename_i line lines stripped
    rw [stripped, ← Description.all_isEmpty_place (line :: lines)]
    split
    · rename_i empty
      rw [empty]
      rfl
    · rename_i first rest placed
      rw [placed]
      split
      · rfl
      · rfl

namespace FieldList

open Block Description

def marker (text : Text) : Text := ":" ++ text ++ ":"

theorem isMarker_marker (text : Text) : (marker text).IsMarker where
  flush := rfl
  ends := Text.trimEnd_append_of_content (by decide) (':' :: text)

theorem markedBy_closed {lines : Block} {markers : List Text} (marked : lines.MarkedBy markers) :
    MarkedBy (closed lines) markers := by
  unfold closed
  split
  · split
    · exact marked
    · exact marked.append_indented markedBy_blank
  · exact marked

theorem markedBy_labelled (label : Text) (fields : List Field) :
    MarkedBy (labelled label fields) (if fields.isEmpty then [] else [marker label.trim]) := by
  apply markedBy_closed
  split
  · exact markedBy_hang (isMarker_marker label.trim) [] _
  · cases fields with
    | nil => exact markedBy_nil
    | cons first rest =>
      -- The marker is not empty, so the bullets below the first are indented.
      have bullet : ∀ field : Field, MarkedBy
          (hang (Text.spaces (marker label.trim).length ++ " * ") field.lines) [] := by
        intro field
        exact markedBy_hang_of_space rfl field.lines
      have below := markedBy_flatMap bullet rest
      rw [List.flatMap_eq_nil_iff.mpr fun _ _ => rfl] at below
      exact (markedBy_hang (isMarker_marker label.trim) "* " first.lines).append_indented below

def pairMarkers (role typeRole : Text) (field : Field) : List Text :=
  marker (role ++ " " ++ field.name) ::
    if field.type.isEmpty then [] else [marker (typeRole ++ " " ++ field.name)]

theorem markedBy_pair (role typeRole : Text) (field : Field) :
    MarkedBy (pair role typeRole field) (pairMarkers role typeRole field) := by
  have isMarker := isMarker_marker (role ++ " " ++ field.name)
  obtain ⟨described, marked, written⟩ : ∃ described : Block,
      MarkedBy described [marker (role ++ " " ++ field.name)] ∧
        pair role typeRole field =
          if field.type.isEmpty then described
          else described ++ [":" ++ typeRole ++ " " ++ field.name ++ ": " ++ field.type] := by
    unfold pair
    split
    · exact ⟨_, markedBy_nil.cons isMarker.flush (Or.inl rfl), rfl⟩
    · exact ⟨_, markedBy_hang isMarker [] _, rfl⟩
  rw [written, pairMarkers]
  split
  · exact marked
  · have typeMarker := isMarker_marker (typeRole ++ " " ++ field.name)
    refine marked.append (markedBy_nil.cons typeMarker.flush (Or.inr ⟨field.type, ?_⟩))
    simp [marker]

theorem markedBy_pairs (role typeRole : Text) (fields : List Field) :
    MarkedBy (pairs role typeRole fields) (fields.flatMap (pairMarkers role typeRole)) :=
  (markedBy_flatMap (markedBy_pair role typeRole) fields).append_indented markedBy_blank

def returnedMarkers (field : Field) : List Text :=
  (if field.description.all (·.isEmpty) then [] else [marker "returns"]) ++
    if field.type.isEmpty then [] else [marker "rtype"]

theorem markedBy_returned {field : Field} (nameless : field.name = []) :
    MarkedBy (returned field) (returnedMarkers field) := by
  -- With a name the title alone would be content behind the marker.
  apply markedBy_closed
  apply MarkedBy.append
  · rw [nameless, Field.all_isEmpty_summary]
    split
    · exact markedBy_nil
    · exact markedBy_hang (isMarker_marker "returns") [] _
  · split
    · exact markedBy_nil
    · exact markedBy_blank.cons (isMarker_marker "rtype").flush (Or.inr ⟨field.type, rfl⟩)

def raisedMarker (field : Field) : Text :=
  let type := (target? field.type).getD field.type
  if type.isEmpty then marker "raises" else marker ("raises " ++ type)

theorem markedBy_raised (field : Field) : MarkedBy (raised field) [raisedMarker field] := by
  have isMarker : (raisedMarker field).IsMarker := by
    simp only [raisedMarker]
    split
    · exact isMarker_marker _
    · exact isMarker_marker _
  unfold raised
  split
  · exact markedBy_nil.cons isMarker.flush (Or.inl rfl)
  · exact markedBy_hangWith isMarker [] rfl _

theorem markedBy_raisedAll (fields : List Field) :
    MarkedBy (raisedAll fields) (fields.map raisedMarker) := by
  cases fields with
  | nil => exact markedBy_nil
  | cons first rest =>
    rw [List.map_eq_flatMap]
    exact (markedBy_flatMap markedBy_raised (first :: rest)).append_indented markedBy_blank

def attributeMarker (field : Field) : Text := ".. attribute:: " ++ field.name

theorem markedBy_attributeDirective (field : Field) :
    MarkedBy (attributeDirective field) [attributeMarker field] := by
  have option : MarkedBy (if field.type.isEmpty then [] else [[], "   :type: " ++ field.type]) [] := by
    refine markedBy_of_indented fun line member => ?_
    split at member
    · contradiction
    · rcases List.mem_pair.mp member with rfl | rfl
      · rfl
      · rfl
  have body := (markedBy_shift 2 (Field.summary [] [] field.description)).append_indented option
  exact MarkedBy.cons rfl (Or.inl rfl)
    ((markedBy_blank.append body).append_indented markedBy_blank)

theorem markedBy_attributes (fields : List Field) :
    MarkedBy (attributes fields) (fields.map attributeMarker) := by
  rw [List.map_eq_flatMap]
  exact markedBy_flatMap markedBy_attributeDirective fields

end FieldList

namespace Directive

open Block

theorem isMarker_marker (name : Text) : (marker name).IsMarker where
  flush := rfl
  ends := by
    have content : isBlank ':' = false := by decide
    have colon := Text.trimEnd_append_of_content content (".. " ++ name ++ ":")
    rwa [List.append_assoc] at colon

theorem markedBy_body (lines : Block) : MarkedBy (body lines) [] :=
  (markedBy_shift 2 (Block.dedent lines)).append_indented markedBy_blank

theorem markedBy_notice (name : Text) (lines : Block) : MarkedBy (notice name lines) [marker name] := by
  have flush := (isMarker_marker name).flush
  unfold notice
  split
  · exact markedBy_blank.cons flush (Or.inl rfl)
  · rename_i line _
    exact markedBy_blank.cons flush (Or.inr ⟨line.trim, by rw [List.append_assoc]; rfl⟩)
  · exact (markedBy_blank.append (markedBy_body _)).cons flush (Or.inl rfl)

theorem markedBy_admonition (name : Text) (lines : Block) :
    MarkedBy (admonition name lines) [marker name] := by
  have flush := (isMarker_marker name).flush
  unfold admonition
  split
  · exact markedBy_blank.cons flush (Or.inl rfl)
  · rename_i first rest _
    exact (markedBy_blank.append (markedBy_body rest)).cons flush
      (Or.inr ⟨withoutColon first.trim, by rw [List.append_assoc]; rfl⟩)

end Directive

def Strategy.markers : Strategy → List Field → List Text
  | fields label, entries | returnsLike label _, entries =>
    if entries.isEmpty then [] else [FieldList.marker label.trim]
  | admonition directive, _ | notice directive, _ => [Directive.marker directive]
  | params, entries => entries.flatMap (FieldList.pairMarkers "param" "type")
  | keywordParams, entries => entries.flatMap (FieldList.pairMarkers "keyword" "kwtype")
  | returns, entries => entries.flatMap FieldList.returnedMarkers
  | raises, entries => entries.map FieldList.raisedMarker
  | attributes, entries => entries.map FieldList.attributeMarker
  | rubric, _ => []

namespace SectionContext

variable (context : SectionContext)

/-- The fields that a section is read as. -/
def entries : Strategy → Block → List Field
  | .fields _, lines | .attributes, lines => (context.fields named lines).1
  | .params, lines | .keywordParams, lines => (context.fields shared lines).1
  | .raises, lines => (context.fields errors lines).1
  | .returns, lines => (context.bodyField (context.scope lines) lines).1.toList
  | .returnsLike _ requireType, lines =>
    (context.bodyField (context.scope lines)
      (if requireType then withColon lines else lines)).1.toList
  | .admonition _, _ | .notice _, _ | .rubric, _ => []

theorem name_bodyField {scope : Scope} {lines : Block} {field : Field}
    (found : (context.bodyField scope lines).1 = some field) : field.name = [] := by
  simp only [bodyField, Field.ofBody?] at found
  split at found
  · contradiction
  · cases found
    rfl

theorem markedBy_write {strategy : Strategy} (indents : strategy ≠ .rubric) (title : Text)
    (lines : Block) :
    Block.MarkedBy (context.write strategy title lines).1
      (strategy.markers (context.entries strategy lines)) := by
  cases strategy with
  | fields label => exact FieldList.markedBy_labelled label _
  | returnsLike label requireType => exact FieldList.markedBy_labelled label _
  | admonition directive => exact Directive.markedBy_admonition directive _
  | params => exact FieldList.markedBy_pairs "param" "type" _
  | keywordParams => exact FieldList.markedBy_pairs "keyword" "kwtype" _
  | returns =>
    simp only [write, entries, Strategy.markers, Prod.map]
    cases found : (context.bodyField (context.scope lines) lines).1 with
    | none => exact Block.markedBy_nil
    | some field =>
      rw [Option.toList_some, List.flatMap_singleton]
      exact FieldList.markedBy_returned (context.name_bodyField found)
  | raises => exact FieldList.markedBy_raisedAll _
  | attributes => exact FieldList.markedBy_attributes _
  | notice directive => exact Directive.markedBy_notice directive _
  | rubric => exact absurd rfl indents

end SectionContext

end DocMarkup
