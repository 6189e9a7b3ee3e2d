import DocMarkup.Members.Basic
import DocMarkup.Proofs.Checked.Assignments
import DocMarkup.Proofs.Checked.Docstrings
import DocMarkup.Proofs.Outline.Lookup

namespace DocMarkup

namespace Checked

def kindOf (text : Text) : Except Fault StatementKind :=
  match StatementKind.className? text, StatementKind.functionName? text with
  | some name, _ => .ok (.classDef name)
  | none, some name => .ok (.function name)
  | none, none => do
    match ← targets text with
    | [] => return .other
    | names => return .assignment names

def addStatement (nodes : OpenNodes) (s : Statement) : Except Fault OpenNodes := do
  return (nodes.closeTo s.indent).push ⟨← kindOf s.text, s.line, s.indent, []⟩

def outline (source : Text) : Except Fault Outline := do
  let nodes ← (← starts source).foldlM addStatement {}
  return (nodes.closeTo 0).roots

def find? (source : Text) (path : List Text) : Except Fault (Option OutlineNode) := do
  return (← outline source).find? path

theorem kindOf_eq (text : Text) : kindOf text = .ok (StatementKind.ofText text) := by
  unfold kindOf StatementKind.ofText
  cases StatementKind.className? text with
  | some name => rfl
  | none =>
    cases StatementKind.functionName? text with
    | some name => rfl
    | none =>
      rw [targets_eq]
      cases Assignment.targets text <;> rfl

theorem outline_eq (source : Text) : outline source = .ok (Outline.ofSource source) := by
  have added (nodes : OpenNodes) (s : Statement) : addStatement nodes s = .ok (nodes.add s) := by
    rw [addStatement, kindOf_eq]
    rfl
  rw [outline, starts_eq, ok_bind, foldlM_eq_ok fun nodes s _ => added nodes s, Outline.ofSource,
    ← Outline.build_eq_ofStatements]
  rfl

theorem find?_eq (source : Text) (path : List Text) :
    find? source path = .ok ((Outline.ofSource source).find? path) := by
  rw [find?, outline_eq]
  rfl

def itemsFrom (place : StringList.Place) (depth : Nat) : Text → Except Fault (Option (List Text))
  | [] => .ok none
  | c :: rest =>
    match place with
    | .comment => itemsFrom (if c == '\n' then .code else .comment) depth rest
    | .quoted quote item =>
      if c == '\\' then
        match rest with
        | [] => .ok none
        | d :: rest => itemsFrom (.quoted quote (item ++ [d])) depth rest
      else if c == quote then do return (← itemsFrom .code depth rest).map (item :: ·)
      else itemsFrom (.quoted quote (item ++ [c])) depth rest
    | .code =>
      if opensBracket c then itemsFrom .code (depth + 1) rest
      else if closesBracket c then do
        let left ← difference depth 1
        if left = 0 then return some [] else itemsFrom .code left rest
      else if c == '#' then itemsFrom .comment depth rest
      else if isQuote c then itemsFrom (.quoted c []) depth rest
      else itemsFrom .code depth rest

def items? (text : Text) : Except Fault (Option (List Text)) :=
  match text.trimStart with
  | [] => .ok none
  | c :: rest => if opensBracket c then itemsFrom .code 1 rest else .ok none

def listFrom (nodes : Outline) (lines : List Text) : Nat → Text → Except Fault (Option (List Text))
  | 0, _ => .ok none
  | hops + 1, name =>
    match nodes.reverse.find? (ModuleMembers.assigns name) with
    | none => .ok none
    | some node => do
      let index ← difference node.line 1
      match lines[index]? with
      | none => return none
      | some line =>
        match ← value? line.trimStart with
        | none => return none
        | some value =>
          match ModuleMembers.nameValue? value with
          | some other => listFrom nodes lines hops other
          | none => items? (Text.joinLines (value :: (← sliceFrom lines node.line)))

def listed (nodes : Outline) (lines : List Text) (name : Text) : Except Fault (List Text) := do
  return (← listFrom nodes lines ModuleMembers.maxHops name).getD []

def members (source : Text) : Except Fault ModuleMembers := do
  let nodes ← outline source
  return ⟨← listed nodes source.lines "__autodoc_excludes__",
    ← listed nodes source.lines "__deprecated__"⟩

theorem itemsFrom_quoted {quote c : Char} (plain : ¬ (c == '\\') = true) (item : Text) (depth : Nat)
    (rest : Text) :
    itemsFrom (.quoted quote item) depth (c :: rest) =
      if c == quote then (itemsFrom .code depth rest).map (Option.map (item :: ·))
      else itemsFrom (.quoted quote (item ++ [c])) depth rest := by
  cases rest <;> simp only [itemsFrom, plain] <;> rfl

theorem itemsFrom_eq (place : StringList.Place) (depth : Nat) (text : Text) :
    itemsFrom place (depth + 1) text = .ok (StringList.itemsFrom place depth text) := by
  fun_induction StringList.itemsFrom place depth text with
  | case1 => rfl
  | case2 depth c rest ih => rw [itemsFrom, ih]
  | case3 depth c quote item escape => rw [itemsFrom, if_pos escape]
  | case4 depth c quote item escape d rest ih => rw [itemsFrom, if_pos escape, ih]
  | case5 depth c rest quote item plain closing ih =>
    rw [itemsFrom_quoted plain, if_pos closing, ih]
    rfl
  | case6 depth c rest quote item plain inner ih => rw [itemsFrom_quoted plain, if_neg inner, ih]
  | case7 depth c rest opens ih => rw [itemsFrom, if_pos opens, ih]
  | case8 c rest opens closes =>
    rw [itemsFrom, if_neg opens, if_pos closes]
    rfl
  | case9 c rest opens closes depth ih =>
    rw [itemsFrom, if_neg opens, if_pos closes, difference_add, ok_bind,
      if_neg (Nat.succ_ne_zero _), ih]
  | case10 depth c rest opens closes hash ih =>
    rw [itemsFrom, if_neg opens, if_neg closes, if_pos hash, ih]
  | case11 depth c rest opens closes hash quote ih =>
    rw [itemsFrom, if_neg opens, if_neg closes, if_neg hash, if_pos quote, ih]
  | case12 depth c rest opens closes hash quote ih =>
    rw [itemsFrom, if_neg opens, if_neg closes, if_neg hash, if_neg quote, ih]

theorem items?_eq (text : Text) : items? text = .ok (StringList.items? text) := by
  unfold items? StringList.items?
  cases text.trimStart with
  | nil => rfl
  | cons c rest =>
    dsimp only
    rw [itemsFrom_eq]
    split <;> rfl

theorem line_pos_of_mem {source : Text} {node : OutlineNode}
    (member : node ∈ Outline.ofSource source) : 0 < node.line :=
  (Outline.exists_line_of_mem_placed (Outline.mem_placed_of_mem member none)).1

theorem listFrom_eq {nodes : Outline} (numbered : ∀ node ∈ nodes, 0 < node.line)
    (lines : List Text) (hops : Nat) (name : Text) :
    listFrom nodes lines hops name = .ok (ModuleMembers.listFrom nodes lines hops name) := by
  induction hops generalizing name with
  | zero => rfl
  | succ hops ih =>
    rw [listFrom, ModuleMembers.listFrom]
    cases found : nodes.reverse.find? (ModuleMembers.assigns name) with
    | none => rfl
    | some node =>
      have positive := numbered node (List.mem_reverse.mp (List.mem_of_find?_eq_some found))
      dsimp only
      rw [difference_of_le positive, ok_bind]
      show _ = Except.ok (lines[node.line - 1]?.bind fun line => _)
      cases read : lines[node.line - 1]? with
      | none => rfl
      | some line =>
        have inside : node.line ≤ lines.length := by
          have bound := (List.getElem?_eq_some_iff.mp read).1
          omega
        dsimp only
        rw [value?_eq, ok_bind, Option.bind_some]
        cases Assignment.value? line.trimStart with
        | none => rfl
        | some value =>
          simp only [Option.bind_eq_bind, Option.bind_some]
          cases ModuleMembers.nameValue? value with
          | some other => exact ih other
          | none =>
            dsimp only
            rw [sliceFrom_eq inside, ok_bind, items?_eq]

theorem listed_eq (source name : Text) :
    listed (Outline.ofSource source) source.lines name = .ok (ModuleMembers.listed source name) := by
  rw [listed, listFrom_eq fun node => line_pos_of_mem]
  rfl

theorem members_eq (source : Text) : members source = .ok (ModuleMembers.ofSource source) := by
  rw [members, outline_eq, ok_bind, listed_eq, listed_eq]
  rfl

/-- No docstring and no module makes the program read outside of a text or a list or between the
bytes of a character, take more lines than are left, count below zero or run on for ever: with all
of this checked, reading them gives what it gives unchecked. -/
theorem no_fault :
    (∀ (parser : Parser) (lines : Block), parseLines parser lines = .ok (parser.parseLines lines)) ∧
      (∀ source, outline source = .ok (Outline.ofSource source)) ∧
      (∀ source path, find? source path = .ok ((Outline.ofSource source).find? path)) ∧
      (∀ text, value? text = .ok (Assignment.value? text)) ∧
      ∀ source, members source = .ok (ModuleMembers.ofSource source) :=
  ⟨parseLines_eq, outline_eq, find?_eq, value?_eq, members_eq⟩

end Checked

end DocMarkup
