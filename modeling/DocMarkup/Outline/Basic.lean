import DocMarkup.Outline.Assignment

namespace DocMarkup

inductive StatementKind where
  | classDef (name : Text)
  | function (name : Text)
  | assignment (targets : List Text)
  | other
  deriving DecidableEq

namespace StatementKind

def leadingIdentifier? : Text → Option Text
  | [] => none
  | c :: rest => if startsIdentifier c then some (c :: rest.takeWhile isWord) else none

def afterKeyword? (keyword text : Text) : Option Text :=
  match Text.after? keyword text with
  | some (c :: rest) => if isBlank c then some (Text.trimStart rest) else none
  | _ => none

def className? (text : Text) : Option Text := (afterKeyword? "class" text).bind leadingIdentifier?

def functionName? (text : Text) : Option Text :=
  (afterKeyword? "def" ((afterKeyword? "async" text).getD text)).bind leadingIdentifier?

def ofText (text : Text) : StatementKind :=
  match className? text, functionName? text with
  | some name, _ => classDef name
  | none, some name => function name
  | none, none =>
    match Assignment.targets text with
    | [] => other
    | targets => assignment targets

def names : StatementKind → List Text
  | classDef name | function name => [name]
  | assignment targets => targets
  | other => []

end StatementKind

structure OutlineNode where
  kind : StatementKind
  line : Nat
  indent : Nat
  children : List OutlineNode

abbrev Outline := List OutlineNode

namespace Outline

/-- Statements nested by indentation: those behind a statement that are indented deeper, up to the
first that is not, are its children. -/
def ofStatements : List Statement → Outline
  | [] => []
  | s :: rest =>
    ⟨StatementKind.ofText s.text, s.line, s.indent,
      ofStatements (rest.takeWhile (s.indent < ·.indent))⟩ ::
    ofStatements (rest.dropWhile (s.indent < ·.indent))
termination_by statements => statements.length
decreasing_by
  · have := (List.takeWhile_prefix (fun t : Statement => s.indent < t.indent) (l := rest)).length_le
    simp only [List.length_cons]
    omega
  · have := (List.dropWhile_suffix (fun t : Statement => s.indent < t.indent) (l := rest)).length_le
    simp only [List.length_cons]
    omega

def ofSource (source : Text) : Outline := ofStatements (Statement.starts source)

/-- The statement that defines a path of names. An assignment to a name on the path answers for all
names below it; otherwise the path leads into classes and functions. -/
def find? (outline : Outline) : List Text → Option OutlineNode
  | [] => none
  | name :: path =>
    match List.find? (fun node => node.kind.names.contains name) outline with
    | none => none
    | some node =>
      match node.kind with
      | .assignment _ => some node
      | _ => if path.isEmpty then some node else find? node.children path

def pathOf (dotted : Text) : List Text := dotted.splitOn '.'

end Outline

end DocMarkup
