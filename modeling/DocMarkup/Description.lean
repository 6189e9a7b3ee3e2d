import DocMarkup.Text.Block
import DocMarkup.Text.Word

/-!
Descriptions behind a marker. A description that starts with a list or a literal block stands on
lines of its own, for the marker in front would swallow its markup; any other starts on the marker's
line and goes on aligned with its beginning.
-/

namespace DocMarkup.Description

def endsMarker (rest : Text) : Bool := rest.isEmpty || rest.head?.any isBlank

def isBullet : Text → Bool
  | [] => false
  | c :: rest => (c == '*' || c == '+' || c == '-') && endsMarker rest

def isSmallNumeral (c : Char) : Bool := ['i', 'v', 'x', 'l', 'c', 'd', 'm'].contains c

def isCapitalNumeral (c : Char) : Bool := ['I', 'V', 'X', 'L', 'C', 'D', 'M'].contains c

def isEnumerator (text : Text) : Bool :=
  !text.isEmpty &&
    (text.all isDecimal || text == ['#'] || text.all isSmallNumeral || text.all isCapitalNumeral ||
      (text.length == 1 && text.all isLetter))

def isEnumeratedBy (closing : Char) (line : Text) : Bool :=
  let rest := line.dropWhile (· != closing)
  isEnumerator (line.takeWhile (· != closing)) && !rest.isEmpty && endsMarker rest.tail

def isEnumerated (line : Text) : Bool :=
  match line with
  | '(' :: rest => isEnumeratedBy ')' rest
  | _ => isEnumeratedBy '.' line

/-- The first line is a list item, or the lines below it are indented deeper and it does not
announce a literal block. -/
def isList : Block → Bool
  | [] => false
  | first :: rest =>
    isBullet first || isEnumerated first ||
      (!rest.isEmpty && !first.endsWith "::" && first.indent < Block.leadingIndent rest)

/-- The description as it stands behind a marker: a blank line in front keeps a list or a literal
block off the marker's line, and a literal block is indented if it was not. -/
def place (lines : Block) : Block :=
  if isList lines then [] :: lines
  else
    match lines with
    | [] => []
    | first :: block =>
      if !first.endsWith "::" then lines
      else if first.indent < Block.leadingIndent block then [] :: lines
      else [] :: first :: Block.shift 4 block

def hangWith (marker padding : Text) : Block → Block
  | [] => [marker]
  | first :: rest =>
    Text.trimEnd (marker ++ first) ::
      rest.map fun line => if line.isEmpty then [] else padding ++ line

def hang (marker : Text) (lines : Block) : Block :=
  hangWith marker (Text.spaces marker.length) lines

end DocMarkup.Description
