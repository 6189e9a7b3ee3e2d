import DocMarkup.Text.Block
import DocMarkup.Text.Word

namespace DocMarkup.Wrapped

def isNameChar (c : Char) : Bool := isWord c || c == '.'

def dropStar : Text → Text
  | '*' :: rest => rest
  | text => text

/-- A name, with up to two stars in front, and a parenthesis that the line leaves open. -/
def isStart (line : Text) : Bool :=
  let name := dropStar (dropStar line.trimStart)
  let behind := Text.trimStart (name.dropWhile isNameChar)
  name.head?.any isNameChar && behind.head? == some '(' &&
    behind.tail.all fun c => c != ':' && c != ')'

def isEnd (line : Text) : Bool := line.trimEnd.endsWith "):"

/-- How many of the lines behind a wrapped header continue it. They are at most `bound`, the last of
them closes the header, and none is blank or starts another wrapped header. -/
def continuation? : Nat → Block → Option Nat
  | 0, _ => none
  | _, [] => none
  | bound + 1, line :: rest =>
    if line.trim.isEmpty || isStart line then none
    else if isEnd line then some 1
    else (continuation? bound rest).map (· + 1)

/-- Appends a fragment, with a space unless one of the two sides of the break is a point. -/
def glue (text fragment : Text) : Text :=
  if text.isEmpty || text.endsWith "." || fragment.startsWith "." then text ++ fragment
  else text ++ " " ++ fragment

def spaceCommas (text : Text) : Text :=
  Text.joinWith ", " ((text.splitOn ',').map Text.trim)

def joined (lines : Block) : Text :=
  spaceCommas (((lines.map Text.trim).filter (· ≠ [])).foldl glue [])

def join (bound : Nat) : Block → Block
  | [] => []
  | line :: rest =>
    if isStart line then
      match continuation? bound rest with
      | some n => (line.margin ++ joined (line :: rest.take n)) :: rest.drop n
      | none => line :: rest
    else line :: rest

theorem length_join_le (bound : Nat) (lines : Block) :
    (join bound lines).length ≤ lines.length := by
  cases lines with
  | nil => simp [join]
  | cons line rest =>
    simp only [join]
    split
    · split <;> simp
    · simp

end DocMarkup.Wrapped
