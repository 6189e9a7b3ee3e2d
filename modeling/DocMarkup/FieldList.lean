import DocMarkup.Description
import DocMarkup.Field.Basic

namespace DocMarkup

namespace Field

/-- The name in bold, the type in parentheses unless it stands alone, and a dash if a description
follows. A type without references is emphasised. -/
def title (name type : Text) (described : Bool) : Text :=
  let dash : Text := if described then " -- " else ""
  let shown : Text := if type.contains backtick then type else "*" ++ type ++ "*"
  if name.isEmpty && type.isEmpty then []
  else if name.isEmpty then shown ++ dash
  else if type.isEmpty then "**" ++ name ++ "**" ++ dash
  else "**" ++ name ++ "** (" ++ shown ++ ")" ++ dash

def summary (name type : Text) (description : Block) : Block :=
  match Block.stripBlanks description with
  | [] => [title name type false]
  | line :: lines =>
    match Description.place (line :: lines) with
    | [] => [title name type true]
    | first :: rest =>
      if first.isEmpty then title name type true :: first :: rest
      else (title name type true ++ first) :: rest

def lines (field : Field) : Block := summary field.name field.type field.description

end Field

namespace FieldList

def closed (lines : Block) : Block :=
  match lines.getLast? with
  | some line => if line.isEmpty then lines else lines ++ [[]]
  | none => lines

def bulleted (marker : Text) : List Field → Block
  | [] => []
  | first :: rest =>
    Description.hang (marker ++ " * ") first.lines ++
      rest.flatMap fun field => Description.hang (Text.spaces marker.length ++ " * ") field.lines

def labelled (label : Text) (fields : List Field) : Block :=
  let marker := ":" ++ label.trim ++ ":"
  closed <|
    match fields with
    | [field] => Description.hang (marker ++ " ") field.lines
    | fields => bulleted marker fields

def pair (role typeRole : Text) (field : Field) : Block :=
  let marker := ":" ++ role ++ " " ++ field.name ++ ":"
  let described :=
    match Block.stripBlanks field.description with
    | [] => [marker]
    | line :: lines => Description.hang (marker ++ " ") (Description.place (line :: lines))
  if field.type.isEmpty then described
  else described ++ [":" ++ typeRole ++ " " ++ field.name ++ ": " ++ field.type]

def pairs (role typeRole : Text) (fields : List Field) : Block :=
  fields.flatMap (pair role typeRole) ++ [[]]

def returned (field : Field) : Block :=
  let body := Field.summary field.name [] field.description
  closed <|
    (if body.all (·.isEmpty) then [] else Description.hang ":returns: " body) ++
      (if field.type.isEmpty then [] else [":rtype: " ++ field.type, []])

def target? (text : Text) : Option Text :=
  let role := text.takeWhile isRoleChar
  let quoted := text.dropWhile isRoleChar
  let inner := quoted.tail.dropLast
  if (role.isEmpty || isRole role) && quoted.head? == some backtick &&
      quoted.tail.getLast? == some backtick && !inner.isEmpty && !inner.contains '\n' then
    some inner
  else
    none

def raised (field : Field) : Block :=
  let type := (target? field.type).getD field.type
  let marker : Text := if type.isEmpty then ":raises:" else ":raises " ++ type ++ ":"
  match Block.stripBlanks field.description with
  | [] => [marker]
  | line :: lines => Description.hangWith (marker ++ " ") (Text.spaces 4) (line :: lines)

def raisedAll (fields : List Field) : Block :=
  match fields with
  | [] => []
  | fields => fields.flatMap raised ++ [[]]

def attributeDirective (field : Field) : Block :=
  let directive : Text := ".. attribute:: " ++ field.name
  let typeOption : Text := "   :type: " ++ field.type
  directive :: [] :: Block.shift 3 (Field.summary [] [] field.description) ++
    (if field.type.isEmpty then [] else [[], typeOption]) ++ [[]]

def attributes (fields : List Field) : Block := fields.flatMap attributeDirective

end FieldList

end DocMarkup
