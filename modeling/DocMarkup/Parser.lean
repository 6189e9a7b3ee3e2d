import DocMarkup.LineCursor
import DocMarkup.Section.Basic

namespace DocMarkup

structure Parser where
  registry : Registry
  typeMarkup : TypeMarkup
  wrapBound : Nat

namespace Parser

def defaultWrapBound : Nat := 3

def google : Parser where
  registry := Registry.google
  typeMarkup := ⟨[], .qualified⟩
  wrapBound := defaultWrapBound

def sectionContext (parser : Parser) (describe : Block → Block) : SectionContext where
  registry := parser.registry
  typeMarkup := parser.typeMarkup
  wrapBound := parser.wrapBound
  describe := describe

def endsParagraphAt (parser : Parser) : Block → Bool
  | [] => true
  | line :: rest => line.isEmpty || (parser.registry.headerAt? (line :: rest)).isSome

def takeParagraph (parser : Parser) (lines : Block) : Block × Block :=
  let (taken, left) := cutBefore parser.endsParagraphAt lines
  (taken ++ Block.leadingBlanks left, Block.skipBlanks left)

/-- Text up to the next section, and what follows. `started` tells that something has been written
before: then blank lines in front of the text are dropped. -/
def takeText (parser : Parser) (started : Bool) (lines : Block) : Block × Block :=
  if started then (⟨parser.registry, none⟩ : Scope).takeAll lines else parser.takeParagraph lines

def step (parser : Parser) (describe : Block → Block) (started : Bool) : Block → Block × Block
  | [] => ([], [])
  | line :: rest =>
    match parser.registry.headerAt? (line :: rest) with
    | some strategy => (parser.sectionContext describe).write strategy line.headerTitle rest
    | none => parser.takeText started (line :: rest)

theorem length_takeText_lt (parser : Parser) (started : Bool) (line : Text) (rest : Block)
    (h : parser.registry.headerAt? (line :: rest) = none) :
    (parser.takeText started (line :: rest)).2.length < (line :: rest).length := by
  by_cases blank : line = []
  · have shorter : (Block.skipBlanks (line :: rest)).length < (line :: rest).length :=
      Block.length_skipBlanks_lt (by simp [blank])
    cases started
    · simp only [takeText, takeParagraph, Bool.false_eq_true, ↓reduceIte]
      rw [cutBefore]
      simpa [endsParagraphAt, blank] using shorter
    · simp only [takeText, Scope.takeAll, ↓reduceIte]
      exact Nat.lt_of_le_of_lt
        (Nat.le_trans (Block.length_skipBlanks_le _) (length_cutBefore_le _ _)) shorter
  · cases started
    · simp only [takeText, takeParagraph, Bool.false_eq_true, ↓reduceIte]
      exact Nat.lt_of_le_of_lt (Block.length_skipBlanks_le _)
        (length_cutBefore_lt (by simp [endsParagraphAt, blank, h]))
    · simp only [takeText, Scope.takeAll, ↓reduceIte]
      have same : Block.skipBlanks (line :: rest) = line :: rest := by
        simp [Block.skipBlanks, blank]
      rw [same]
      exact Nat.lt_of_le_of_lt (Block.length_skipBlanks_le _)
        (length_cutBefore_lt (by simp [Scope.endsAt, Scope.leaves, h]))

theorem length_step_lt (parser : Parser) (describe : Block → Block) (started : Bool) (line : Text)
    (rest : Block) :
    (parser.step describe started (line :: rest)).2.length < (line :: rest).length := by
  simp only [step]
  split
  · exact Nat.lt_succ_of_le (SectionContext.length_write_le _ _ _ _)
  · rename_i h
    exact length_takeText_lt parser started line rest h

def runFrom (parser : Parser) (describe : Block → Block) (started : Bool) (lines : Block) : Block :=
  match lines with
  | [] => []
  | line :: rest =>
    let written := parser.step describe started (line :: rest)
    written.1 ++ runFrom parser describe (started || !written.1.isEmpty) written.2
termination_by lines.length
decreasing_by exact length_step_lt parser describe started line rest

def run (parser : Parser) (describe : Block → Block) (lines : Block) : Block :=
  let blanks := Block.leadingBlanks lines
  blanks ++ parser.runFrom describe (!blanks.isEmpty) (Block.skipBlanks lines)

/-- A docstring written out with descriptions nested up to `depth` deep. -/
def parseNested (parser : Parser) : Nat → Block → Block
  | 0, _ => []
  | depth + 1, lines => parser.run (parser.parseNested depth) (LineCursor.ofLines lines).toList

/-- A docstring written out. Descriptions nest less deep than it has lines. -/
def parseLines (parser : Parser) (lines : Block) : Block :=
  parser.parseNested (lines.length + 1) lines

def parse (parser : Parser) (text : Text) : Block := parser.parseLines text.lines

def render (parser : Parser) (text : Text) : Text := Text.joinLines (parser.parse text)

end Parser

end DocMarkup
