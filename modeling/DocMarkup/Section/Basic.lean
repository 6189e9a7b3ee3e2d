import DocMarkup.Directive
import DocMarkup.FieldList

namespace DocMarkup

structure SectionContext where
  registry : Registry
  typeMarkup : TypeMarkup
  wrapBound : Nat
  describe : Block → Block

namespace SectionContext

def scope (context : SectionContext) (lines : Block) : Scope :=
  ⟨context.registry, some (Block.leadingIndent lines)⟩

def headerBound (context : SectionContext) (style : EntryStyle) : Option Nat :=
  if style.typed then some context.wrapBound else none

def field (context : SectionContext) (style : EntryStyle) (scope : Scope) (lines : Block) :
    Field × Block :=
  (Entry.take scope (context.headerBound style) lines).map
    (Field.ofEntry context.typeMarkup context.describe style) id

def fields (context : SectionContext) (style : EntryStyle) (lines : Block) : List Field × Block :=
  (Entry.read (context.scope lines) (context.headerBound style) lines).map
    (Field.ofEntries context.typeMarkup context.describe style) id

def body (context : SectionContext) (lines : Block) : Block × Block :=
  (context.scope lines).takeAll lines

def bodyField (context : SectionContext) (scope : Scope) (lines : Block) : Option Field × Block :=
  let (taken, left) := scope.takeAll lines
  (Field.ofBody? context.typeMarkup context.describe (Block.dedent taken), left)

def withColon : Block → Block
  | [] => []
  | line :: rest =>
    if line.isEmpty || line.endsWith ":" then line :: rest else (line ++ ":") :: rest

def named : EntryStyle := ⟨true, false, false⟩

def shared : EntryStyle := ⟨true, false, true⟩

def errors : EntryStyle := ⟨false, true, false⟩

def write (context : SectionContext) (strategy : Strategy) (title : Text) (lines : Block) :
    Block × Block :=
  match strategy with
  | .fields label => (context.fields named lines).map (FieldList.labelled label) id
  | .returnsLike label requireType =>
    let lines' := if requireType then withColon lines else lines
    (context.bodyField (context.scope lines) lines').map
      (fun field => FieldList.labelled label field.toList) id
  | .admonition directive => (context.body lines).map (Directive.admonition directive) id
  | .params => (context.fields shared lines).map (FieldList.pairs "param" "type") id
  | .keywordParams => (context.fields shared lines).map (FieldList.pairs "keyword" "kwtype") id
  | .returns =>
    (context.bodyField (context.scope lines) lines).map
      (fun field => field.elim [] FieldList.returned) id
  | .raises => (context.fields errors lines).map FieldList.raisedAll id
  | .attributes => (context.fields named lines).map FieldList.attributes id
  | .notice directive => (context.body lines).map (Directive.notice directive) id
  | .rubric => (context.body lines).map (Directive.rubric title) id

theorem length_withColon (lines : Block) : (withColon lines).length = lines.length := by
  cases lines with
  | nil => rfl
  | cons line rest => simp only [withColon]; split <;> rfl

theorem length_write_le (context : SectionContext) (strategy : Strategy) (title : Text)
    (lines : Block) : (context.write strategy title lines).2.length ≤ lines.length := by
  cases strategy with
  | fields => exact Entry.length_read_le _ _ _
  | returnsLike label requireType =>
    cases requireType
    · exact Scope.length_takeAll_le _ _
    · exact Nat.le_trans (Scope.length_takeAll_le _ _) (Nat.le_of_eq (length_withColon lines))
  | admonition => exact Scope.length_takeAll_le _ _
  | params => exact Entry.length_read_le _ _ _
  | keywordParams => exact Entry.length_read_le _ _ _
  | returns => exact Scope.length_takeAll_le _ _
  | raises => exact Entry.length_read_le _ _ _
  | attributes => exact Entry.length_read_le _ _ _
  | notice => exact Scope.length_takeAll_le _ _
  | rubric => exact Scope.length_takeAll_le _ _

end SectionContext

end DocMarkup
