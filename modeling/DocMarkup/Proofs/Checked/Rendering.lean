import DocMarkup.Proofs.Checked.Access
import DocMarkup.Proofs.TypeExpr.Pieces
import DocMarkup.Directive
import DocMarkup.FieldList

namespace DocMarkup

namespace Checked

def piecesFrom (separates : Char → Bool) (text : Text) (start position depth : Nat) :
    Text → Except Fault (List Text)
  | [] => do return [← textFrom text start]
  | c :: rest =>
    let next := position + c.utf8Size
    if opensBracket c || closesBracket c then
      piecesFrom separates text start next (bracketDepth depth c) rest
    else if depth == 0 && separates c then do
      let piece ← textSlice text start position
      return piece :: (← piecesFrom separates text next next depth rest)
    else piecesFrom separates text start next depth rest

def splitTopLevel (separates : Char → Bool) (expr : Text) : Except Fault (List Text) :=
  piecesFrom separates expr 0 0 0 expr

def renderType (typeMarkup : TypeMarkup) (expr : Text) : Except Fault Text :=
  if expr.isEmpty then .ok []
  else do
    match ← splitTopLevel (· == ',') expr with
    | [] => return []
    | primary :: rest =>
      let tokens := (← splitTopLevel isBlank primary).filter (· ≠ [])
      let suffixes := (rest.map Text.trim).filter (· ≠ [])
      return Text.joinWith " " (tokens.map typeMarkup.resolve) ++
        suffixes.flatMap TypeMarkup.emphasizedSuffix

theorem piecesFrom_eq {separates : Char → Bool} {text rest : Text} (front piece : Text)
    (depth : Nat) (whole : front ++ piece ++ rest = text) :
    piecesFrom separates text front.byteLength (front ++ piece).byteLength depth rest =
      .ok ((TypeExpr.splitAtDepth separates depth rest).modifyHead (piece ++ ·)) := by
  induction rest generalizing front piece depth with
  | nil =>
    rw [List.append_nil] at whole
    rw [piecesFrom, ← whole, textFrom_append]
    simp [TypeExpr.splitAtDepth]
  | cons c rest ih =>
    have longer : (front ++ piece).byteLength + c.utf8Size =
        (front ++ (piece ++ [c])).byteLength := by
      simp [Nat.add_assoc]
    have goesOn (deeper : Nat) := ih front (piece ++ [c]) deeper (by simpa using whole)
    have prepends (deeper : Nat) :
        (TypeExpr.splitAtDepth separates deeper rest).modifyHead (piece ++ [c] ++ ·) =
          (Text.consFirst c (TypeExpr.splitAtDepth separates deeper rest)).modifyHead
            (piece ++ ·) := by
      obtain ⟨first, others, eq⟩ :=
        List.exists_cons_of_ne_nil (TypeExpr.splitAtDepth_ne_nil separates deeper rest)
      simp [eq, Text.consFirst]
    rw [piecesFrom, longer, TypeExpr.splitAtDepth]
    simp only [goesOn, prepends]
    by_cases bracket : (opensBracket c || closesBracket c) = true
    · have joined : (depth == 0 && separates c && !opensBracket c && !closesBracket c) = false := by
        rw [Bool.and_assoc, ← Bool.not_or, bracket]
        simp
      rw [if_pos bracket, joined, if_neg Bool.false_ne_true]
    · have loose : (!opensBracket c && !closesBracket c) = true := by
        rw [← Bool.not_or]
        simpa using bracket
      rw [if_neg bracket, Bool.and_assoc (depth == 0 && separates c), loose, Bool.and_true]
      split
      · rename_i separated
        have top : depth = 0 := beq_iff_eq.mp (Bool.and_eq_true_iff.mp separated).1
        have behind := ih (front ++ (piece ++ [c])) [] depth (by simpa using whole)
        rw [List.append_nil] at behind
        rw [behind, ← whole, textSlice_append, top]
        simp only [ok_bind, pure_eq_ok, List.nil_append, List.modifyHead_cons, List.append_nil]
        rw [show (fun x : Text => x) = id from rfl, List.modifyHead_id]
        rfl
      · have same : bracketDepth depth c = depth := by
          rw [Bool.not_eq_true, Bool.or_eq_false_iff] at bracket
          rw [bracketDepth, bracket.1, bracket.2]
          rfl
        rw [same]

theorem splitTopLevel_eq (separates : Char → Bool) (expr : Text) :
    splitTopLevel separates expr = .ok (TypeExpr.splitTopLevel separates expr) := by
  have pieces : piecesFrom separates expr 0 0 0 expr = _ := piecesFrom_eq [] [] 0 rfl
  rw [splitTopLevel, pieces, TypeExpr.splitTopLevel]
  obtain ⟨first, others, eq⟩ :=
    List.exists_cons_of_ne_nil (TypeExpr.splitAtDepth_ne_nil separates 0 expr)
  rw [eq]
  rfl

theorem renderType_eq (typeMarkup : TypeMarkup) (expr : Text) :
    renderType typeMarkup expr = .ok (typeMarkup.render expr) := by
  rw [renderType, TypeMarkup.render]
  split
  · rfl
  · obtain ⟨primary, rest, eq⟩ := List.exists_cons_of_ne_nil (TypeExpr.clauses_ne_nil expr)
    rw [splitTopLevel_eq, ok_bind, TypeExpr.tokens, TypeExpr.suffixes, ← TypeExpr.clauses, eq]
    simp only [splitTopLevel_eq, ok_bind, List.headD_cons, List.tail_cons]
    rfl

def lastIdx? {α : Type} (p : α → Bool) (items : List α) : Option Nat :=
  (items.reverse.findIdx? p).map (items.length - 1 - ·)

def stripBlanks (lines : Block) : Except Fault Block :=
  match lines.findIdx? (!·.isEmpty) with
  | none => .ok []
  | some start =>
    let last := (lastIdx? (!·.isEmpty) lines).getD start
    slice lines start (last + 1)

def isList (lines : Block) : Except Fault Bool :=
  match lines.head? with
  | none => .ok false
  | some first =>
    if Description.isBullet first || Description.isEnumerated first then .ok true
    else if lines.length < 2 || first.endsWith "::" then .ok false
    else do
      let below ← sliceFrom lines 1
      return first.indent < ((below.find? (· ≠ [])).map Text.indent).getD first.indent

def place (lines : Block) : Except Fault Block := do
  if ← isList lines then return [] :: lines
  else
    match lines with
    | [] => return []
    | first :: block =>
      if !first.endsWith "::" then return lines
      else if first.indent < Block.leadingIndent block then return [] :: lines
      else return [] :: first :: Block.shift 4 block

def summary (name type : Text) (description : Block) : Except Fault Block := do
  let stripped ← stripBlanks description
  if stripped.isEmpty then return [Field.title name type false]
  else do
    let placed ← place stripped
    let first ← element placed 0
    if first.isEmpty then return Field.title name type true :: placed
    else return placed.set 0 (Field.title name type true ++ first)

theorem skipBlanks_cases (lines : Block) :
    (Block.skipBlanks lines = [] ∧ ∀ line ∈ lines, line = []) ∨
      ∃ line rest, Block.skipBlanks lines = line :: rest ∧ line ≠ [] := by
  induction lines with
  | nil => exact .inl ⟨rfl, nofun⟩
  | cons line lines ih =>
    by_cases blank : line = []
    · have skipped : Block.skipBlanks (line :: lines) = Block.skipBlanks lines := by
        simp [Block.skipBlanks, blank]
      rw [skipped]
      rcases ih with ⟨empty, blanks⟩ | content
      · exact .inl ⟨empty, List.forall_mem_cons.mpr ⟨blank, blanks⟩⟩
      · exact .inr content
    · exact .inr ⟨line, lines, by simp [Block.skipBlanks, blank], blank⟩

theorem findIdx?_blanks {blanks rest : Block} {line : Text} (blank : ∀ line ∈ blanks, line = [])
    (content : line ≠ []) :
    (blanks ++ line :: rest).findIdx? (!·.isEmpty) = some blanks.length := by
  induction blanks with
  | nil => simp [List.findIdx?_cons, content]
  | cons first blanks ih =>
    obtain ⟨empty, others⟩ := List.forall_mem_cons.mp blank
    rw [List.cons_append, List.findIdx?_cons, empty, ih others]
    rfl

theorem blank_of_mem_leadingBlanks {lines : Block} :
    ∀ line ∈ Block.leadingBlanks lines, line = [] :=
  fun line mem => of_decide_eq_true (List.all_eq_true.mp List.all_takeWhile line mem)

theorem stripBlanks_eq (lines : Block) : stripBlanks lines = .ok (Block.stripBlanks lines) := by
  have front := Block.leadingBlanks_append_skipBlanks lines
  have back := Block.leadingBlanks_append_skipBlanks (Block.skipBlanks lines).reverse
  rcases skipBlanks_cases lines with ⟨empty, blank⟩ | ⟨first, rest, content, full⟩
  · have none : lines.findIdx? (!·.isEmpty) = none := by
      rw [List.findIdx?_eq_none_iff]
      intro line mem
      rw [blank line mem]
      rfl
    rw [stripBlanks, none, Block.stripBlanks, empty]
    rfl
  rcases skipBlanks_cases (Block.skipBlanks lines).reverse with
    ⟨-, blank⟩ | ⟨last, inner, behind, solid⟩
  · exact absurd (blank first (by simp [content])) full
  have start : lines.findIdx? (!·.isEmpty) = some (Block.leadingBlanks lines).length := by
    conv_lhs => rw [← front, content]
    exact findIdx?_blanks blank_of_mem_leadingBlanks full
  rw [behind] at back
  have middle : Block.stripBlanks lines = (last :: inner).reverse := by
    rw [Block.stripBlanks, behind]
  have whole : Block.leadingBlanks lines ++ Block.stripBlanks lines ++
      (Block.leadingBlanks (Block.skipBlanks lines).reverse).reverse = lines := by
    rw [middle, List.append_assoc, ← List.reverse_append, back, List.reverse_reverse, front]
  have stop : lastIdx? (!·.isEmpty) lines =
      some ((Block.leadingBlanks lines ++ Block.stripBlanks lines).length - 1) := by
    have reversed : lines.reverse = Block.leadingBlanks (Block.skipBlanks lines).reverse ++
        last :: (inner ++ (Block.leadingBlanks lines).reverse) := by
      rw [← List.cons_append, ← List.append_assoc, back, ← List.reverse_append, front]
    rw [lastIdx?, reversed, findIdx?_blanks blank_of_mem_leadingBlanks solid, Option.map_some,
      ← congrArg List.length whole, List.length_append, List.length_reverse]
    congr 1
    omega
  have positive : 0 < (Block.stripBlanks lines).length := by
    rw [middle, List.length_reverse]
    exact Nat.succ_pos _
  have next : (Block.leadingBlanks lines ++ Block.stripBlanks lines).length - 1 + 1 =
      (Block.leadingBlanks lines ++ Block.stripBlanks lines).length := by
    rw [List.length_append]
    omega
  have cut := slice_append (Block.leadingBlanks lines) (Block.stripBlanks lines)
    (Block.leadingBlanks (Block.skipBlanks lines).reverse).reverse
  rw [whole] at cut
  rw [stripBlanks, start, stop]
  simp only [Option.getD_some, next, cut]

theorem isList_eq (lines : Block) : isList lines = .ok (Description.isList lines) := by
  cases lines with
  | nil => rfl
  | cons first rest =>
    rw [isList, List.head?_cons, Description.isList]
    simp only [sliceFrom_cons_one, ok_bind]
    split
    · rename_i item
      rw [item, Bool.true_or]
    · rename_i item
      rw [Bool.not_eq_true] at item
      rw [item, Bool.false_or]
      cases rest with
      | nil => rfl
      | cons second others =>
        cases announces : first.endsWith "::" with
        | true => rfl
        | false =>
          have long : ¬ (first :: second :: others).length < 2 := by simp
          rw [Block.leadingIndent, decide_eq_false long]
          cases (second :: others).find? (· ≠ []) <;> simp

theorem place_eq (lines : Block) : place lines = .ok (Description.place lines) := by
  unfold place Description.place
  rw [isList_eq, ok_bind]
  split
  · rfl
  · cases lines with
    | nil => rfl
    | cons first block =>
      simp only
      split
      · rfl
      · split <;> rfl

theorem place_ne_nil {lines : Block} (nonempty : lines ≠ []) : Description.place lines ≠ [] := by
  obtain ⟨first, rest, rfl⟩ := List.exists_cons_of_ne_nil nonempty
  unfold Description.place
  split
  · exact nofun
  · simp only
    split
    · exact nofun
    · split <;> exact nofun

theorem summary_eq (name type : Text) (description : Block) :
    summary name type description = .ok (Field.summary name type description) := by
  rw [summary, Field.summary, stripBlanks_eq, ok_bind]
  cases Block.stripBlanks description with
  | nil => rfl
  | cons line lines =>
    have placed := place_ne_nil (List.cons_ne_nil line lines)
    obtain ⟨first, rest, eq⟩ := List.exists_cons_of_ne_nil placed
    have head : element (first :: rest) 0 = .ok first := rfl
    simp only [List.isEmpty_cons, Bool.false_eq_true, ↓reduceIte, place_eq, ok_bind, eq, head]
    split <;> rfl

def fieldLines (field : Field) : Except Fault Block :=
  summary field.name field.type field.description

def bullet (marker : Text) (field : Field) : Except Fault Block := do
  return Description.hang (marker ++ " * ") (← fieldLines field)

def bulleted (marker : Text) : List Field → Except Fault Block
  | [] => .ok []
  | first :: rest => do
    return (← bullet marker first) ++
      (← rest.mapM (bullet (Text.spaces marker.length))).flatten

def labelled (label : Text) (fields : List Field) : Except Fault Block := do
  let marker := ":" ++ label.trim ++ ":"
  let body ←
    match fields with
    | [field] => do pure (Description.hang (marker ++ " ") (← fieldLines field))
    | fields => bulleted marker fields
  return FieldList.closed body

def pair (role typeRole : Text) (field : Field) : Except Fault Block := do
  let marker := ":" ++ role ++ " " ++ field.name ++ ":"
  let stripped ← stripBlanks field.description
  let described ←
    if stripped.isEmpty then pure [marker]
    else do pure (Description.hang (marker ++ " ") (← place stripped))
  if field.type.isEmpty then return described
  else return described ++ [":" ++ typeRole ++ " " ++ field.name ++ ": " ++ field.type]

def pairs (role typeRole : Text) (fields : List Field) : Except Fault Block := do
  return (← fields.mapM (pair role typeRole)).flatten ++ [[]]

def returned (field : Field) : Except Fault Block := do
  let body ← summary field.name [] field.description
  return FieldList.closed <|
    (if body.all (·.isEmpty) then [] else Description.hang ":returns: " body) ++
      (if field.type.isEmpty then [] else [":rtype: " ++ field.type, []])

def raised (field : Field) : Except Fault Block := do
  let type := (FieldList.target? field.type).getD field.type
  let marker : Text := if type.isEmpty then ":raises:" else ":raises " ++ type ++ ":"
  let stripped ← stripBlanks field.description
  if stripped.isEmpty then return [marker]
  else return Description.hangWith (marker ++ " ") (Text.spaces 4) stripped

def raisedAll (fields : List Field) : Except Fault Block := do
  let lines := (← fields.mapM raised).flatten
  if lines.isEmpty then return lines else return lines ++ [[]]

def attributeDirective (field : Field) : Except Fault Block := do
  let directive : Text := ".. attribute:: " ++ field.name
  let typeOption : Text := "   :type: " ++ field.type
  let body ← summary [] [] field.description
  return directive :: [] :: Block.shift 3 body ++
    (if field.type.isEmpty then [] else [[], typeOption]) ++ [[]]

def attributes (fields : List Field) : Except Fault Block := do
  return (← fields.mapM attributeDirective).flatten

def notice (name : Text) (lines : Block) : Except Fault Block := do
  match ← stripBlanks lines with
  | [] => return [Directive.marker name, []]
  | [line] => return [Directive.marker name ++ " " ++ line.trim, []]
  | lines => return [Directive.marker name, []] ++ Directive.body lines

def admonition (name : Text) (lines : Block) : Except Fault Block := do
  match ← stripBlanks (Block.dedent lines) with
  | [] => return [Directive.marker name, []]
  | first :: rest =>
    return [Directive.marker name ++ " " ++ Directive.withoutColon first.trim, []] ++
      Directive.body rest

def rubric (title : Text) (lines : Block) : Except Fault Block := do
  match Block.dedent (← stripBlanks lines) with
  | [] => return [Directive.marker "rubric" ++ " " ++ title, []]
  | line :: lines =>
    return [Directive.marker "rubric" ++ " " ++ title, []] ++ (line :: lines) ++ [[]]

theorem fieldLines_eq (field : Field) : fieldLines field = .ok field.lines :=
  summary_eq _ _ _

theorem bullet_eq (marker : Text) (field : Field) :
    bullet marker field = .ok (Description.hang (marker ++ " * ") field.lines) := by
  rw [bullet, fieldLines_eq]
  rfl

theorem bulleted_eq (marker : Text) (fields : List Field) :
    bulleted marker fields = .ok (FieldList.bulleted marker fields) := by
  cases fields with
  | nil => rfl
  | cons first rest =>
    rw [bulleted, bullet_eq, mapM_eq_ok fun field _ => bullet_eq _ field]
    rfl

theorem labelled_eq (label : Text) (fields : List Field) :
    labelled label fields = .ok (FieldList.labelled label fields) := by
  unfold labelled FieldList.labelled
  rcases fields with _ | ⟨first, _ | ⟨second, rest⟩⟩
  · rfl
  · simp only [fieldLines_eq]
    rfl
  · simp only [bulleted_eq]
    rfl

theorem pair_eq (role typeRole : Text) (field : Field) :
    pair role typeRole field = .ok (FieldList.pair role typeRole field) := by
  rw [pair, stripBlanks_eq, FieldList.pair]
  cases Block.stripBlanks field.description with
  | nil => split <;> rfl
  | cons line lines =>
    simp only [place_eq]
    split <;> rfl

theorem pairs_eq (role typeRole : Text) (fields : List Field) :
    pairs role typeRole fields = .ok (FieldList.pairs role typeRole fields) := by
  rw [pairs, mapM_eq_ok fun field _ => pair_eq role typeRole field]
  rfl

theorem returned_eq (field : Field) : returned field = .ok (FieldList.returned field) := by
  rw [returned, summary_eq]
  rfl

theorem raised_eq (field : Field) : raised field = .ok (FieldList.raised field) := by
  rw [raised, stripBlanks_eq, FieldList.raised]
  cases Block.stripBlanks field.description <;> rfl

theorem raised_ne_nil (field : Field) : FieldList.raised field ≠ [] := by
  unfold FieldList.raised
  cases Block.stripBlanks field.description <;> exact nofun

theorem raisedAll_eq (fields : List Field) :
    raisedAll fields = .ok (FieldList.raisedAll fields) := by
  rw [raisedAll, mapM_eq_ok fun field _ => raised_eq field]
  cases fields with
  | nil => rfl
  | cons first rest =>
    obtain ⟨line, lines, eq⟩ := List.exists_cons_of_ne_nil (raised_ne_nil first)
    simp [FieldList.raisedAll, eq, List.flatMap_def]

theorem attributeDirective_eq (field : Field) :
    attributeDirective field = .ok (FieldList.attributeDirective field) := by
  rw [attributeDirective, summary_eq]
  rfl

theorem attributes_eq (fields : List Field) :
    attributes fields = .ok (FieldList.attributes fields) := by
  rw [attributes, mapM_eq_ok fun field _ => attributeDirective_eq field]
  rfl

theorem notice_eq (name : Text) (lines : Block) :
    notice name lines = .ok (Directive.notice name lines) := by
  rw [notice, stripBlanks_eq, Directive.notice]
  rcases Block.stripBlanks lines with _ | ⟨first, _ | ⟨second, rest⟩⟩ <;> rfl

theorem admonition_eq (name : Text) (lines : Block) :
    admonition name lines = .ok (Directive.admonition name lines) := by
  rw [admonition, stripBlanks_eq, Directive.admonition]
  cases Block.stripBlanks (Block.dedent lines) <;> rfl

theorem rubric_eq (title : Text) (lines : Block) :
    rubric title lines = .ok (Directive.rubric title lines) := by
  rw [rubric, stripBlanks_eq, ok_bind, Directive.rubric]
  cases Block.dedent (Block.stripBlanks lines) <;> rfl

end Checked

end DocMarkup
