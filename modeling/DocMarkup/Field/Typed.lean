import DocMarkup.Text.Basic

namespace DocMarkup.Text

/-- The longest piece of the first line that ends in content and is followed, blanks aside, by a
closing parenthesis. -/
def closedPiece? : Text → Option Text
  | [] => none
  | c :: rest =>
    if c == '\n' then none
    else
      match closedPiece? rest with
      | some piece => some (c :: piece)
      | none => if !isBlank c && (trimStart rest).head? == some ')' then some [c] else none

/-- The name before the first parenthesis that is closed, and the type inside. The name is at least
one character of the first line. -/
def splitTyped? : Text → Option (Text × Text)
  | [] => none
  | c :: rest =>
    if c == '\n' then none
    else
      let inside := if rest.head? == some '(' then closedPiece? (trimStart rest.tail) else none
      match inside with
      | some type => some ([c], type)
      | none => (splitTyped? rest).map fun (name, type) => (c :: name, type)

end DocMarkup.Text
