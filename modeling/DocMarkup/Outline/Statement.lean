import DocMarkup.Text.Bracket

/-!
Where the statements of a Python module start. A line starts a statement unless it lies in a string
literal, in brackets, or behind a backslash at the end of the line before it.
-/

namespace DocMarkup

structure Literal where
  quote : Char
  triple : Bool

structure SourceState where
  depth : Nat := 0
  literal : Option Literal := none
  continued : Bool := false

def isQuote (c : Char) : Bool := c == '"' || c == '\x27'

namespace SourceState

def isTripled (c : Char) (rest : Text) : Bool := rest.take 2 == [c, c]

/-- What is open behind a line of which this is the rest, when its first `skip` characters have been
read already. -/
def scan (skip depth : Nat) (literal : Option Literal) : Text → SourceState
  | [] => ⟨depth, literal, false⟩
  | c :: rest =>
    match skip, literal with
    | skip + 1, _ => scan skip depth literal rest
    | 0, some opened =>
      if c == '\\' then scan 1 depth literal rest
      else if c != opened.quote then scan 0 depth literal rest
      else if !opened.triple then scan 0 depth none rest
      else if isTripled c rest then scan 2 depth none rest
      else scan 0 depth literal rest
    | 0, none =>
      if c == '#' then ⟨depth, none, false⟩
      else if isQuote c then
        if isTripled c rest then scan 2 depth (some ⟨c, true⟩) rest
        else scan 0 depth (some ⟨c, false⟩) rest
      else if c == '\\' && rest.isEmpty then ⟨depth, none, true⟩
      else scan 0 (bracketDepth depth c) none rest

/-- A literal in single quotes ends with its line, unless a backslash carries it on. -/
def endLine (line : Text) (state : SourceState) : SourceState :=
  match state.literal with
  | some opened =>
    if !opened.triple && line.getLast? != some '\\' then { state with literal := none } else state
  | none => state

def next (state : SourceState) (line : Text) : SourceState :=
  (scan 0 state.depth state.literal line).endLine line

def atStart (state : SourceState) : Bool :=
  state.depth == 0 && state.literal.isNone && !state.continued

end SourceState

structure Statement where
  line : Nat
  indent : Nat
  text : Text

namespace Statement

def hasCode (line : Text) : Bool :=
  match line.trimStart with
  | [] => false
  | c :: _ => c != '#'

def ofLine (number : Nat) (line : Text) : Statement :=
  ⟨number, line.margin.byteLength, line.trimStart⟩

def startsFrom (number : Nat) (state : SourceState) : List Text → List Statement
  | [] => []
  | line :: rest =>
    let others := startsFrom (number + 1) (state.next line) rest
    if state.atStart && hasCode line then ofLine number line :: others else others

def starts (source : Text) : List Statement := startsFrom 1 {} source.lines

end Statement

end DocMarkup
