import DocMarkup.Parser
import DocMarkup.Proofs.Checked.Colon
import DocMarkup.Proofs.Checked.Rendering
import DocMarkup.Proofs.Field.Deepen
import DocMarkup.Proofs.Field.LookAhead
import DocMarkup.Proofs.Section.Docstring
import DocMarkup.Proofs.Text.Cursor

namespace DocMarkup

namespace Checked

/-- A reading that comes to its end with a value, and what its cursor has left. -/
def Leaves {α : Type} (result : Except Fault (α × LineCursor)) (expected : α × Block) : Prop :=
  ∃ rest, result = .ok (expected.1, rest) ∧ rest.toList = expected.2

def takeUntil (stop : Block → Bool) (cursor : LineCursor) : Block × LineCursor :=
  match _found : cursor.next? with
  | none => ([], cursor)
  | some (line, rest) =>
    if stop cursor.toList then ([], cursor)
    else
      let others := takeUntil stop rest
      (line :: others.1, others.2)
termination_by cursor.toList.length
decreasing_by
  rw [LineCursor.toList_next? _found]
  exact Nat.lt_succ_self _

def takeBlanks (cursor : LineCursor) : Block × LineCursor :=
  takeUntil (fun lines => lines.head? != some []) cursor

def takeAll (scope : Scope) (cursor : LineCursor) : Block × LineCursor :=
  let (taken, left) := takeUntil scope.endsAt (takeBlanks cursor).2
  let (blanks, rest) := takeBlanks left
  (taken ++ blanks, rest)

theorem takeUntil_eq (stop : Block → Bool) (cursor : LineCursor) :
    (takeUntil stop cursor).map id LineCursor.toList = cutBefore stop cursor.toList := by
  fun_induction takeUntil stop cursor with
  | case1 cursor found =>
    have nothing := LineCursor.next?_eq_none_iff.mp found
    rw [Prod.map_apply, nothing]
    rfl
  | case2 cursor line rest found stops =>
    rw [LineCursor.toList_next? found] at stops ⊢
    rw [cutBefore, if_pos stops, Prod.map_apply, LineCursor.toList_next? found]
    rfl
  | case3 cursor line rest found stops others ih =>
    rw [LineCursor.toList_next? found] at stops ⊢
    rw [cutBefore, if_neg stops, ← ih]
    rfl

theorem cutBefore_content (lines : Block) :
    cutBefore (fun lines => lines.head? != some []) lines =
      (Block.leadingBlanks lines, Block.skipBlanks lines) := by
  induction lines with
  | nil => rfl
  | cons line lines ih =>
    rw [cutBefore, ih]
    by_cases blank : line = [] <;> simp [blank, Block.leadingBlanks, Block.skipBlanks]

theorem takeBlanks_eq (cursor : LineCursor) :
    (takeBlanks cursor).map id LineCursor.toList =
      (Block.leadingBlanks cursor.toList, Block.skipBlanks cursor.toList) :=
  (takeUntil_eq _ cursor).trans (cutBefore_content _)

theorem takeAll_eq (scope : Scope) (cursor : LineCursor) :
    (takeAll scope cursor).map id LineCursor.toList = scope.takeAll cursor.toList := by
  obtain ⟨-, skipped⟩ := Prod.ext_iff.mp (takeBlanks_eq cursor)
  obtain ⟨taken, left⟩ := Prod.ext_iff.mp (takeUntil_eq scope.endsAt (takeBlanks cursor).2)
  obtain ⟨blanks, rest⟩ :=
    Prod.ext_iff.mp (takeBlanks_eq (takeUntil scope.endsAt (takeBlanks cursor).2).2)
  simp only [Prod.map_fst, Prod.map_snd, id_eq] at skipped taken left blanks rest
  rw [skipped] at taken left
  simp only [takeAll, Scope.takeAll, Prod.map_apply, id_eq]
  rw [taken, blanks, rest, left]

def pass (cursor : LineCursor) (n : Nat) : Except Fault LineCursor :=
  match cursor.consume n with
  | (.ok (), rest) => .ok rest
  | (.error e, _) => .error (.pastEnd e)

def wrapLength? (cursor : LineCursor) : Nat → Nat → Option Nat
  | 0, _ => none
  | bound + 1, index =>
    match cursor.get? index with
    | none => none
    | some line =>
      if line.trim.isEmpty || Wrapped.isStart line then none
      else if Wrapped.isEnd line then some (index + 1)
      else wrapLength? cursor bound (index + 1)

def joinWrapped (bound : Nat) (cursor : LineCursor) : Except Fault LineCursor :=
  match cursor.get? 0 with
  | none => .ok cursor
  | some first =>
    if !Wrapped.isStart first then .ok cursor
    else
      match wrapLength? cursor bound 1 with
      | none => .ok cursor
      | some count =>
        let lines := cursor.peek count
        let joined := Wrapped.joined lines
        if joined.isEmpty then .ok cursor
        else do
          let first ← element lines 0
          let rest ← pass cursor count
          return rest.pushFront (first.margin ++ joined)

theorem wrapLength?_eq (cursor : LineCursor) (bound index : Nat) :
    wrapLength? cursor bound index =
      (Wrapped.continuation? bound (cursor.toList.drop index)).map (· + index) := by
  induction bound generalizing index with
  | zero => rfl
  | succ bound ih =>
    rw [wrapLength?, LineCursor.get?_eq]
    cases seen : cursor.toList[index]? with
    | none =>
      rw [List.drop_eq_nil_of_le (List.getElem?_eq_none_iff.mp seen)]
      rfl
    | some line =>
      obtain ⟨inside, same⟩ := List.getElem?_eq_some_iff.mp seen
      rw [List.drop_eq_getElem_cons inside, same, Wrapped.continuation?_cons, ih]
      simp only
      split
      · rfl
      · split
        · rw [Option.map_some, Nat.add_comm]
        · rw [Option.map_map]
          congr 1
          funext n
          show n + (index + 1) = n + 1 + index
          omega

theorem pass_eq_ok (cursor : LineCursor) {n : Nat} (fits : n ≤ cursor.toList.length) :
    ∃ rest, pass cursor n = .ok rest ∧ rest.toList = cursor.toList.drop n := by
  obtain ⟨rest, made, left⟩ := LineCursor.consume_of_le fits
  exact ⟨rest, by rw [pass, made], left⟩

theorem length_of_continuation? {bound n : Nat} {lines : Block}
    (continues : Wrapped.continuation? bound lines = some n) : n ≤ lines.length := by
  obtain ⟨before, closing, after, rfl, rfl, -⟩ := Wrapped.exists_closes_of_continuation? continues
  simp

theorem joinWrapped_eq (bound : Nat) (cursor : LineCursor) :
    ∃ rest, joinWrapped bound cursor = .ok rest ∧
      rest.toList = Wrapped.join bound cursor.toList := by
  unfold joinWrapped
  rw [LineCursor.get?_eq, wrapLength?_eq]
  cases coming : cursor.toList with
  | nil => exact ⟨cursor, rfl, coming⟩
  | cons line lines =>
    simp only [List.getElem?_cons_zero, List.drop_succ_cons, List.drop_zero, Wrapped.join]
    by_cases start : Wrapped.isStart line = true
    · rw [start, Bool.not_true, if_neg Bool.false_ne_true, if_pos rfl]
      cases continues : Wrapped.continuation? bound lines with
      | none => exact ⟨cursor, rfl, coming⟩
      | some n =>
        have fits : n + 1 ≤ cursor.toList.length := by
          rw [coming]
          exact Nat.succ_le_succ (length_of_continuation? continues)
        obtain ⟨rest, consumed, left⟩ := pass_eq_ok cursor fits
        have joined : Wrapped.joined (line :: lines.take n) ≠ [] :=
          List.ne_nil_of_mem
            (Wrapped.mem_joined (by decide) (Wrapped.opens_of_isStart start) (lines.take n))
        have first : element (line :: lines.take n) 0 = .ok line := rfl
        have seen : cursor.peek (n + 1) = line :: lines.take n := by
          rw [LineCursor.peek_eq, coming, List.take_succ_cons]
        simp only [Option.map_some, seen, List.isEmpty_iff, joined, first, ok_bind, consumed]
        refine ⟨_, rfl, ?_⟩
        rw [LineCursor.toList_pushFront, left, coming, List.drop_succ_cons]
    · rw [Bool.not_eq_true] at start
      rw [start, Bool.not_false, if_pos rfl, if_neg Bool.false_ne_true]
      exact ⟨cursor, rfl, coming⟩

section Docstrings

variable (parser : Parser) (describe : Block → Except Fault Block)

def unwrap (style : EntryStyle) (cursor : LineCursor) : Except Fault LineCursor :=
  if style.typed then joinWrapped parser.wrapBound cursor else .ok cursor

def takeEntry (style : EntryStyle) (scope : Scope) (cursor : LineCursor) :
    Except Fault (Entry × LineCursor) := do
  let unwrapped ← unwrap parser style cursor
  let (header, below) := unwrapped.next?.getD ([], unwrapped)
  let (block, rest) := takeUntil (scope.endsBlockAt (header.indent + 1)) below
  return (⟨header, block⟩, rest)

def ofEntry (style : EntryStyle) (entry : Entry) : Except Fault Field := do
  let (head, text) :=
    match ← splitColon? entry.header with
    | some (before, after) => (before, after)
    | none => (entry.header.trim, [])
  let (name, type) := Field.nameAndType style head
  let description ← describe (text :: Block.dedent entry.block)
  let type ← if style.typed then renderType parser.typeMarkup type else pure type
  return ⟨name, type, description⟩

def fieldsFrom (style : EntryStyle) (scope : Scope) (cursor : LineCursor) :
    Except Fault (List Field × LineCursor) :=
  if scope.endsAt cursor.toList then .ok ([], cursor)
  else do
    let (entry, rest) ← takeEntry parser style scope cursor
    let field ← ofEntry parser describe style entry
    if _nearer : rest.toList.length < cursor.toList.length then do
      let (others, left) ← fieldsFrom style scope rest
      return (Field.separate style field ++ others, left)
    else .error .endless
termination_by cursor.toList.length

def fields (style : EntryStyle) (scope : Scope) (cursor : LineCursor) :
    Except Fault (List Field × LineCursor) :=
  fieldsFrom parser describe style scope (takeBlanks cursor).2

def typeAndText (first : Text) (lines : Block) : Except Fault (Text × Block) := do
  match ← splitColon? first with
  | none => return ([], lines)
  | some (before, after) => do
    let rest ← sliceFrom lines 1
    return (before, if after.isEmpty then rest else after :: rest)

def ofBody? (lines : Block) : Except Fault (Option Field) :=
  match lines.head? with
  | none => .ok none
  | some first => do
    let (type, text) ← typeAndText first lines
    let type ← renderType parser.typeMarkup type
    return some ⟨[], type, ← describe (Block.dedent text)⟩

def bodyField (scope : Scope) (cursor : LineCursor) :
    Except Fault (Option Field × LineCursor) := do
  let taken := takeAll scope cursor
  return (← ofBody? parser describe (Block.dedent taken.1), taken.2)

variable (describe' : Block → Block)

theorem unwrap_eq (style : EntryStyle) (cursor : LineCursor) :
    ∃ unwrapped, unwrap parser style cursor = .ok unwrapped ∧ unwrapped.toList =
      Entry.unwrap ((parser.sectionContext describe').headerBound style) cursor.toList := by
  unfold unwrap SectionContext.headerBound
  split
  · exact joinWrapped_eq parser.wrapBound cursor
  · exact ⟨cursor, rfl, rfl⟩

theorem takeEntry_leaves (style : EntryStyle) (scope : Scope) (cursor : LineCursor) :
    Leaves (takeEntry parser style scope cursor)
      (Entry.take scope ((parser.sectionContext describe').headerBound style) cursor.toList) := by
  obtain ⟨unwrapped, joined, lines⟩ := unwrap_eq parser describe' style cursor
  unfold takeEntry
  rw [Entry.take, ← lines, joined, ok_bind]
  cases found : unwrapped.next? with
  | none =>
    have block := takeUntil_eq (scope.endsBlockAt 1) unwrapped
    rw [LineCursor.next?_eq_none_iff.mp found] at block ⊢
    obtain ⟨empty, left⟩ := Prod.ext_iff.mp block
    have empty : (takeUntil (scope.endsBlockAt 1) unwrapped).1 = [] := empty
    show Leaves (.ok ((⟨[], (takeUntil (scope.endsBlockAt 1) unwrapped).1⟩ : Entry), _))
      ((⟨[], []⟩ : Entry), [])
    rw [empty]
    exact ⟨_, rfl, left⟩
  | some parts =>
    obtain ⟨header, below⟩ := parts
    have block := takeUntil_eq (scope.endsBlockAt (header.indent + 1)) below
    rw [LineCursor.toList_next? found]
    simp only [Scope.takeIndented, ← block]
    exact ⟨_, rfl, rfl⟩

variable {describe describe'}

theorem ofEntry_eq (style : EntryStyle) {entry : Entry}
    (described : describe entry.docstring = .ok (describe' entry.docstring)) :
    ofEntry parser describe style entry =
      .ok (Field.ofEntry parser.typeMarkup describe' style entry) := by
  have parts : (match entry.header.splitColon? with
      | some (before, after) => (before, after)
      | none => (entry.header.trim, [])) = Field.headAndText entry.header := rfl
  rw [Entry.docstring] at described
  rw [ofEntry, splitColon?_eq, ok_bind, parts, Field.ofEntry]
  simp only [described, renderType_eq, ok_bind]
  split <;> rfl

theorem fieldsFrom_leaves {style : EntryStyle} {scope : Scope} {lines : Block} {cursor : LineCursor}
    (coming : cursor.toList = lines)
    (described : ∀ entry ∈
      (Entry.readFrom scope ((parser.sectionContext describe').headerBound style) lines).1,
        describe entry.docstring = .ok (describe' entry.docstring)) :
    Leaves (fieldsFrom parser describe style scope cursor)
      ((Entry.readFrom scope ((parser.sectionContext describe').headerBound style)
        lines).map (Field.ofEntries parser.typeMarkup describe' style) id) := by
  fun_induction Entry.readFrom scope ((parser.sectionContext describe').headerBound style) lines
    generalizing cursor with
  | case1 lines ends =>
    rw [← coming] at ends ⊢
    rw [fieldsFrom, if_pos ends]
    exact ⟨cursor, rfl, rfl⟩
  | case2 lines goesOn first others =>
    rename_i ih
    obtain ⟨own, behind⟩ := List.forall_mem_cons.mp described
    have nearer := Entry.length_take_le scope ((parser.sectionContext describe').headerBound style)
      (fun empty : lines = [] => goesOn (by rw [empty]; rfl))
    obtain ⟨rest, taken, left⟩ := takeEntry_leaves parser describe' style scope cursor
    rw [coming] at taken left
    obtain ⟨final, continued, ends⟩ := ih left behind
    have made := ofEntry_eq parser style own
    have nearer : rest.toList.length < lines.length := by
      rw [left]
      exact Nat.lt_of_lt_of_le (Nat.lt_add_of_pos_left (Nat.succ_pos _)) nearer
    unfold fieldsFrom
    rw [coming, if_neg goesOn, taken]
    simp only [ok_bind]
    rw [made, ok_bind, dif_pos nearer, continued]
    exact ⟨final, rfl, ends⟩

theorem typeAndText_eq (first : Text) (rest : Block) :
    typeAndText first (first :: rest) = .ok (match first.splitColon? with
      | some (before, after) => (before, if after.isEmpty then rest else after :: rest)
      | none => ([], first :: rest)) := by
  rw [typeAndText, splitColon?_eq, ok_bind]
  cases first.splitColon? with
  | none => rfl
  | some parts =>
    simp only [sliceFrom_cons_one]
    rfl

theorem ofBody?_eq {lines : Block}
    (described : ∀ inner ∈ Field.bodyDocstring? lines, describe inner = .ok (describe' inner)) :
    ofBody? parser describe lines = .ok (Field.ofBody? parser.typeMarkup describe' lines) := by
  cases lines with
  | nil => rfl
  | cons first rest =>
    rw [ofBody?, List.head?_cons, Field.ofBody?]
    simp only [typeAndText_eq, ok_bind]
    rw [Field.bodyDocstring?] at described
    cases split : first.splitColon? with
    | none =>
      rw [split] at described
      simp only [described _ rfl, renderType_eq, ok_bind]
      rfl
    | some parts =>
      rw [split] at described
      simp only [described _ rfl, renderType_eq, ok_bind]
      rfl

theorem fields_leaves {style : EntryStyle} {cursor : LineCursor}
    (described : ∀ inner ∈ (parser.sectionContext describe').entryDocstrings style cursor.toList,
      describe inner = .ok (describe' inner)) :
    Leaves
      (fields parser describe style ((parser.sectionContext describe').scope cursor.toList) cursor)
      ((parser.sectionContext describe').fields style cursor.toList) := by
  obtain ⟨-, skipped⟩ := Prod.ext_iff.mp (takeBlanks_eq cursor)
  exact fieldsFrom_leaves parser skipped fun entry mem => described _ (List.mem_map_of_mem mem)

theorem bodyField_leaves {scope : Scope} {cursor : LineCursor} {lines : Block}
    (coming : cursor.toList = lines)
    (described : ∀ inner ∈ scope.bodyDocstrings lines, describe inner = .ok (describe' inner)) :
    Leaves (bodyField parser describe scope cursor)
      ((parser.sectionContext describe').bodyField scope lines) := by
  have taken := takeAll_eq scope cursor
  rw [coming] at taken
  obtain ⟨body, left⟩ := Prod.ext_iff.mp taken
  have body : (takeAll scope cursor).1 = (scope.takeAll lines).1 := body
  have made : ofBody? parser describe (Block.dedent (scope.takeAll lines).1) =
      .ok (Field.ofBody? parser.typeMarkup describe' (Block.dedent (scope.takeAll lines).1)) :=
    ofBody?_eq parser fun inner mem => described inner (Option.mem_toList.mpr mem)
  simp only [bodyField, body, made, ok_bind]
  exact ⟨_, rfl, left⟩

end Docstrings

end Checked

end DocMarkup
