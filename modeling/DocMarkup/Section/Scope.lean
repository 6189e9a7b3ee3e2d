import DocMarkup.Section.Registry
import DocMarkup.Text.Block
import DocMarkup.Text.Word

/-!
Where sections begin and end. A header is a line of words before one colon, in any case a registered
keyword, and the next line with content is indented deeper than it. A section ends in front of the
next header and in front of content indented less than its own first line.
-/

namespace DocMarkup

def Text.headerWords? (line : Text) : Option Text :=
  let lowered := line.lowerCase
  let words := lowered.dropLast
  if lowered.getLast? == some ':' && !words.isEmpty &&
      words.all (fun c => isBlank c || isWord c) then
    some words
  else
    none

def Registry.headerAt? (registry : Registry) : Block → Option Strategy
  | [] => none
  | line :: rest =>
    match line.headerWords?.bind registry.get? with
    | some strategy => if line.indent < Block.leadingIndent rest then some strategy else none
    | none => none

def Text.headerTitle (line : Text) : Text :=
  Text.trim (line.trim.reverse.dropWhile (· == ':')).reverse

structure Scope where
  registry : Registry
  /-- The indentation of a section's first line, or `none` outside sections. -/
  bodyIndent : Option Nat

namespace Scope

def leaves (scope : Scope) (line : Text) : Bool :=
  match scope.bodyIndent with
  | none => false
  | some n => !line.isEmpty && !line.isIndented n

def endsAt (scope : Scope) : Block → Bool
  | [] => true
  | line :: rest => (scope.registry.headerAt? (line :: rest)).isSome || scope.leaves line

/-- The scope's lines without blank ones in front, and the lines behind it. Blank lines behind the
scope count as its own. -/
def takeAll (scope : Scope) (lines : Block) : Block × Block :=
  let (taken, left) := cutBefore scope.endsAt (Block.skipBlanks lines)
  (taken ++ Block.leadingBlanks left, Block.skipBlanks left)

theorem length_takeAll_le (scope : Scope) (lines : Block) :
    (scope.takeAll lines).2.length ≤ lines.length :=
  Nat.le_trans (Block.length_skipBlanks_le _)
    (Nat.le_trans (length_cutBefore_le scope.endsAt _) (Block.length_skipBlanks_le lines))

theorem length_taken_le (scope : Scope) (lines : Block) :
    (scope.takeAll lines).1.length ≤ lines.length := by
  have cut := congrArg List.length (cutBefore_append scope.endsAt (Block.skipBlanks lines))
  have blanks := congrArg List.length
    (Block.leadingBlanks_append_skipBlanks (cutBefore scope.endsAt (Block.skipBlanks lines)).2)
  have skipped := Block.length_skipBlanks_le lines
  rw [List.length_append] at cut blanks
  simp only [takeAll, List.length_append]
  omega

def endsBlockAt (scope : Scope) (n : Nat) : Block → Bool
  | [] => true
  | line :: rest =>
    scope.endsAt (line :: rest) || !(line.isEmpty || line.isIndented n)

def takeIndented (scope : Scope) (n : Nat) (lines : Block) : Block × Block :=
  cutBefore (scope.endsBlockAt n) lines

end Scope

end DocMarkup
