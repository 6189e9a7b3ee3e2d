import DocMarkup.Proofs.Checked.Reading
import DocMarkup.Proofs.Parser.Nesting

namespace DocMarkup

namespace Checked

section Sections

variable (parser : Parser) (describe : Block → Except Fault Block)

def closeType (cursor : LineCursor) : Except Fault LineCursor :=
  match cursor.get? 0 with
  | none => .ok cursor
  | some line =>
    if line.isEmpty || line.endsWith ":" then .ok cursor
    else do
      let rest ← pass cursor 1
      return rest.pushFront (line ++ ":")

def typedBody (requireType : Bool) (cursor : LineCursor) : Except Fault LineCursor :=
  if requireType then closeType cursor else .ok cursor

def writeFields (style : EntryStyle) (scope : Scope)
    (render : List Field → Except Fault Block) (cursor : LineCursor) :
    Except Fault (Block × LineCursor) := do
  let read ← fields parser describe style scope cursor
  return (← render read.1, read.2)

def writeField (scope : Scope) (render : Option Field → Except Fault Block)
    (cursor : LineCursor) : Except Fault (Block × LineCursor) := do
  let read ← bodyField parser describe scope cursor
  return (← render read.1, read.2)

def writeBody (scope : Scope) (render : Block → Except Fault Block) (cursor : LineCursor) :
    Except Fault (Block × LineCursor) := do
  let read := takeAll scope cursor
  return (← render read.1, read.2)

def write (strategy : Strategy) (title : Text) (cursor : LineCursor) :
    Except Fault (Block × LineCursor) :=
  let scope : Scope := ⟨parser.registry, some (Block.leadingIndent cursor.toList)⟩
  match strategy with
  | .fields label =>
    writeFields parser describe SectionContext.named scope (labelled label) cursor
  | .returnsLike label requireType => do
    let typed ← typedBody requireType cursor
    writeField parser describe scope (fun field => labelled label field.toList) typed
  | .admonition directive => writeBody scope (admonition directive) cursor
  | .params => writeFields parser describe SectionContext.shared scope (pairs "param" "type") cursor
  | .keywordParams =>
    writeFields parser describe SectionContext.shared scope (pairs "keyword" "kwtype") cursor
  | .returns => writeField parser describe scope (fun field => field.elim (.ok []) returned) cursor
  | .raises => writeFields parser describe SectionContext.errors scope raisedAll cursor
  | .attributes => writeFields parser describe SectionContext.named scope attributes cursor
  | .notice directive => writeBody scope (notice directive) cursor
  | .rubric => writeBody scope (rubric title) cursor

def takeText (started : Bool) (cursor : LineCursor) : Block × LineCursor :=
  if started then takeAll ⟨parser.registry, none⟩ cursor
  else
    let taken := takeUntil parser.endsParagraphAt cursor
    let blanks := takeBlanks taken.2
    (taken.1 ++ blanks.1, blanks.2)

def step (started : Bool) (cursor : LineCursor) : Except Fault (Block × LineCursor) :=
  match parser.registry.headerAt? cursor.toList with
  | some strategy =>
    let header := cursor.next?.getD ([], cursor)
    write parser describe strategy (Text.headerTitle header.1) header.2
  | none => .ok (takeText parser started cursor)

def runFrom (started : Bool) (cursor : LineCursor) : Except Fault Block :=
  if cursor.isEmpty then .ok []
  else do
    let written ← step parser describe started cursor
    if _nearer : written.2.toList.length < cursor.toList.length then
      return written.1 ++ (← runFrom (started || !written.1.isEmpty) written.2)
    else .error .endless
termination_by cursor.toList.length

def run (cursor : LineCursor) : Except Fault Block := do
  let blanks := takeBlanks cursor
  return blanks.1 ++ (← runFrom parser describe (!blanks.1.isEmpty) blanks.2)

def parseLines (lines : Block) : Except Fault Block :=
  run parser
    (fun inner => if inner.length < lines.length then parseLines inner else .error .endless)
    (LineCursor.ofLines lines)
termination_by lines.length

variable {describe} {describe' : Block → Block}

theorem closeType_eq (cursor : LineCursor) :
    ∃ rest, closeType cursor = .ok rest ∧
      rest.toList = SectionContext.withColon cursor.toList := by
  unfold closeType
  rw [LineCursor.get?_eq]
  cases coming : cursor.toList with
  | nil => exact ⟨cursor, rfl, coming⟩
  | cons line lines =>
    simp only [List.getElem?_cons_zero, SectionContext.withColon]
    split
    · exact ⟨cursor, rfl, coming⟩
    · have fits : 1 ≤ cursor.toList.length := by
        rw [coming]
        exact Nat.succ_pos _
      obtain ⟨rest, consumed, left⟩ := pass_eq_ok cursor fits
      rw [consumed]
      refine ⟨_, rfl, ?_⟩
      rw [LineCursor.toList_pushFront, left, coming]
      rfl

theorem typedBody_eq (requireType : Bool) (cursor : LineCursor) :
    ∃ rest, typedBody requireType cursor = .ok rest ∧ rest.toList =
      if requireType then SectionContext.withColon cursor.toList else cursor.toList := by
  cases requireType with
  | true => exact closeType_eq cursor
  | false => exact ⟨cursor, rfl, rfl⟩

theorem writeFields_leaves {style : EntryStyle} {cursor : LineCursor}
    {render : List Field → Except Fault Block} {render' : List Field → Block}
    (rendered : ∀ fields, render fields = .ok (render' fields))
    (described : ∀ inner ∈ (parser.sectionContext describe').entryDocstrings style cursor.toList,
      describe inner = .ok (describe' inner)) :
    Leaves (writeFields parser describe style
        ((parser.sectionContext describe').scope cursor.toList) render cursor)
      (((parser.sectionContext describe').fields style cursor.toList).map render' id) := by
  obtain ⟨rest, read, left⟩ := fields_leaves parser described
  simp only [writeFields, read, rendered, ok_bind]
  exact ⟨rest, rfl, left⟩

theorem writeField_leaves {scope : Scope} {cursor : LineCursor} {lines : Block}
    {render : Option Field → Except Fault Block} {render' : Option Field → Block}
    (rendered : ∀ field, render field = .ok (render' field)) (coming : cursor.toList = lines)
    (described : ∀ inner ∈ scope.bodyDocstrings lines, describe inner = .ok (describe' inner)) :
    Leaves (writeField parser describe scope render cursor)
      (((parser.sectionContext describe').bodyField scope lines).map render' id) := by
  obtain ⟨rest, read, left⟩ := bodyField_leaves parser coming described
  simp only [writeField, read, rendered, ok_bind]
  exact ⟨rest, rfl, left⟩

theorem writeBody_leaves {scope : Scope} {cursor : LineCursor} {render : Block → Except Fault Block}
    {render' : Block → Block} (rendered : ∀ lines, render lines = .ok (render' lines)) :
    Leaves (writeBody scope render cursor) ((scope.takeAll cursor.toList).map render' id) := by
  obtain ⟨body, left⟩ := Prod.ext_iff.mp (takeAll_eq scope cursor)
  have body : (takeAll scope cursor).1 = (scope.takeAll cursor.toList).1 := body
  simp only [writeBody, body, rendered, ok_bind]
  exact ⟨_, rfl, left⟩

theorem write_leaves {strategy : Strategy} {title : Text} {cursor : LineCursor}
    (described : ∀ inner ∈ (parser.sectionContext describe').docstrings strategy cursor.toList,
      describe inner = .ok (describe' inner)) :
    Leaves (write parser describe strategy title cursor)
      ((parser.sectionContext describe').write strategy title cursor.toList) := by
  cases strategy with
  | fields label => exact writeFields_leaves parser (labelled_eq label) described
  | returnsLike label requireType =>
    obtain ⟨typed, closed, lines⟩ := typedBody_eq requireType cursor
    simp only [write, closed, ok_bind]
    exact writeField_leaves parser (fun field => labelled_eq label field.toList) lines described
  | admonition directive => exact writeBody_leaves (admonition_eq directive)
  | params => exact writeFields_leaves parser (pairs_eq "param" "type") described
  | keywordParams => exact writeFields_leaves parser (pairs_eq "keyword" "kwtype") described
  | returns =>
    have rendered (field : Option Field) :
        field.elim (.ok []) returned = .ok (field.elim [] FieldList.returned) := by
      cases field with
      | none => rfl
      | some field => exact returned_eq field
    exact writeField_leaves parser rendered rfl described
  | raises => exact writeFields_leaves parser raisedAll_eq described
  | attributes => exact writeFields_leaves parser attributes_eq described
  | notice directive => exact writeBody_leaves (notice_eq directive)
  | rubric => exact writeBody_leaves (rubric_eq title)

theorem takeText_eq (started : Bool) (cursor : LineCursor) :
    (takeText parser started cursor).map id LineCursor.toList =
      parser.takeText started cursor.toList := by
  cases started with
  | true => exact takeAll_eq _ cursor
  | false =>
    obtain ⟨taken, left⟩ := Prod.ext_iff.mp (takeUntil_eq parser.endsParagraphAt cursor)
    obtain ⟨blanks, rest⟩ :=
      Prod.ext_iff.mp (takeBlanks_eq (takeUntil parser.endsParagraphAt cursor).2)
    simp only [Prod.map_fst, Prod.map_snd, id_eq] at taken left blanks rest
    simp only [takeText, Parser.takeText, Parser.takeParagraph, Bool.false_eq_true, ↓reduceIte,
      Prod.map_apply, id_eq]
    rw [taken, blanks, rest, left]

theorem step_leaves (started : Bool) {cursor : LineCursor} {line : Text} {rest : Block}
    (coming : cursor.toList = line :: rest)
    (described : ∀ inner, inner.length ≤ rest.length → describe inner = .ok (describe' inner)) :
    Leaves (step parser describe started cursor)
      (parser.step describe' started (line :: rest)) := by
  rw [step, coming, Parser.step]
  cases header : parser.registry.headerAt? (line :: rest) with
  | none =>
    have taken := takeText_eq parser started cursor
    rw [coming] at taken
    simp only [← taken]
    exact ⟨_, rfl, rfl⟩
  | some strategy =>
    cases found : cursor.next? with
    | none =>
      rw [LineCursor.next?_eq_none_iff.mp found] at coming
      cases coming
    | some parts =>
      obtain ⟨first, below⟩ := parts
      rw [LineCursor.toList_next? found] at coming
      cases coming
      exact write_leaves parser fun inner mem => described inner (SectionContext.length_docstrings_le mem)

theorem runFrom_eq {started : Bool} {lines : Block} {cursor : LineCursor}
    (coming : cursor.toList = lines)
    (described : ∀ inner, inner.length < lines.length → describe inner = .ok (describe' inner)) :
    runFrom parser describe started cursor = .ok (parser.runFrom describe' started lines) := by
  fun_induction Parser.runFrom parser describe' started lines generalizing cursor with
  | case1 started =>
    rw [runFrom, LineCursor.isEmpty_eq, coming]
    rfl
  | case2 started line rest written =>
    rename_i ih
    have nearer := Parser.length_step_lt parser describe' started line rest
    obtain ⟨behind, made, left⟩ := step_leaves parser started coming
      fun inner short => described inner (Nat.lt_succ_of_le short)
    have others := ih left fun inner short => described inner (Nat.lt_trans short nearer)
    rw [← left] at nearer
    rw [runFrom, LineCursor.isEmpty_eq, coming, made]
    simp only [List.isEmpty_cons, Bool.false_eq_true, ↓reduceIte, ok_bind]
    rw [dif_pos nearer, others]
    rfl

theorem run_eq {cursor : LineCursor}
    (described : ∀ inner, inner.length < cursor.toList.length →
      describe inner = .ok (describe' inner)) :
    run parser describe cursor = .ok (parser.run describe' cursor.toList) := by
  obtain ⟨blanks, left⟩ := Prod.ext_iff.mp (takeBlanks_eq cursor)
  have blanks : (takeBlanks cursor).1 = Block.leadingBlanks cursor.toList := blanks
  have left : (takeBlanks cursor).2.toList = Block.skipBlanks cursor.toList := left
  have shorter := Block.length_skipBlanks_le cursor.toList
  simp only [run, blanks]
  rw [runFrom_eq parser left fun inner short => described inner (Nat.lt_of_lt_of_le short shorter)]
  rfl

theorem parseLines_eq (parser : Parser) (lines : Block) :
    parseLines parser lines = .ok (parser.parseLines lines) := by
  rw [parseLines, Parser.parseLines_eq_run, ← LineCursor.toList_ofLines]
  apply run_eq
  intro inner short
  have nearer : inner.length < lines.length := by
    rwa [LineCursor.toList_ofLines, List.length_map] at short
  rw [if_pos nearer]
  exact parseLines_eq parser inner
termination_by lines.length
decreasing_by exact nearer

end Sections

end Checked

end DocMarkup
