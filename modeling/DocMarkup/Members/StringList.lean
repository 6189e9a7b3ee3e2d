import DocMarkup.Outline.Statement

namespace DocMarkup.StringList

inductive Place where
  | code
  | comment
  | quoted (quote : Char) (item : Text)

/-- The strings up to the bracket that closes the literal, when `depth` brackets are open inside it.
There are none if the literal does not end. -/
def itemsFrom (place : Place) (depth : Nat) : Text → Option (List Text)
  | [] => none
  | c :: rest =>
    match place with
    | .comment => itemsFrom (if c == '\n' then .code else .comment) depth rest
    | .quoted quote item =>
      if c == '\\' then
        match rest with
        | [] => none
        | d :: rest => itemsFrom (.quoted quote (item ++ [d])) depth rest
      else if c == quote then (itemsFrom .code depth rest).map (item :: ·)
      else itemsFrom (.quoted quote (item ++ [c])) depth rest
    | .code =>
      if opensBracket c then itemsFrom .code (depth + 1) rest
      else if closesBracket c then
        match depth with
        | 0 => some []
        | depth + 1 => itemsFrom .code depth rest
      else if c == '#' then itemsFrom .comment depth rest
      else if isQuote c then itemsFrom (.quoted c []) depth rest
      else itemsFrom .code depth rest

def items? (text : Text) : Option (List Text) :=
  match text.trimStart with
  | [] => none
  | c :: rest => if opensBracket c then itemsFrom .code 0 rest else none

end DocMarkup.StringList
