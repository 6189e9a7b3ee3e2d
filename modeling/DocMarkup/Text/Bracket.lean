import DocMarkup.Text.Basic

namespace DocMarkup

def opensBracket (c : Char) : Bool := c == '[' || c == '(' || c == '\x7b'

def closesBracket (c : Char) : Bool := c == ']' || c == ')' || c == '\x7d'

/-- How many brackets are open behind `c`. A closing bracket that closes none is passed over. -/
def bracketDepth (depth : Nat) (c : Char) : Nat :=
  if opensBracket c then depth + 1 else if closesBracket c then depth - 1 else depth

end DocMarkup
