import DocMarkup.Text.Block

namespace DocMarkup.Directive

def marker (name : Text) : Text := ".. " ++ name ++ "::"

def body (lines : Block) : Block := Block.shift 3 (Block.dedent lines) ++ [[]]

def notice (name : Text) (lines : Block) : Block :=
  match Block.stripBlanks lines with
  | [] => [marker name, []]
  | [line] => [marker name ++ " " ++ line.trim, []]
  | lines => [marker name, []] ++ body lines

def withoutColon (text : Text) : Text :=
  if text.getLast? == some ':' then text.dropLast else text

def admonition (name : Text) (lines : Block) : Block :=
  match Block.stripBlanks (Block.dedent lines) with
  | [] => [marker name, []]
  | first :: rest => [marker name ++ " " ++ withoutColon first.trim, []] ++ body rest

def rubric (title : Text) (lines : Block) : Block :=
  match Block.dedent (Block.stripBlanks lines) with
  | [] => [marker "rubric" ++ " " ++ title, []]
  | line :: lines => [marker "rubric" ++ " " ++ title, []] ++ (line :: lines) ++ [[]]

end DocMarkup.Directive
