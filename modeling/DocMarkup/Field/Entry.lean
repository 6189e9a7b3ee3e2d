import DocMarkup.Field.Wrapped
import DocMarkup.Section.Scope

namespace DocMarkup

structure Entry where
  header : Text
  block : Block

namespace Entry

def unwrap (bound : Option Nat) (lines : Block) : Block :=
  match bound with
  | some n => Wrapped.join n lines
  | none => lines

theorem length_unwrap_le (bound : Option Nat) (lines : Block) :
    (unwrap bound lines).length ≤ lines.length := by
  cases bound
  · exact Nat.le_refl _
  · exact Wrapped.length_join_le _ _

def take (scope : Scope) (bound : Option Nat) (lines : Block) : Entry × Block :=
  match unwrap bound lines with
  | [] => (⟨[], []⟩, [])
  | header :: below =>
    let (block, left) := scope.takeIndented (header.indent + 1) below
    (⟨header, block⟩, left)

theorem length_take_le (scope : Scope) (bound : Option Nat) {lines : Block} (h : lines ≠ []) :
    (take scope bound lines).1.block.length + 1 + (take scope bound lines).2.length ≤
      lines.length := by
  have shorter := length_unwrap_le bound lines
  unfold take
  split
  · exact Nat.succ_le_of_lt (List.length_pos_iff.mpr h)
  · rename_i header below unwrapped
    have parts := congrArg List.length
      (cutBefore_append (scope.endsBlockAt (header.indent + 1)) below)
    rw [List.length_append] at parts
    rw [unwrapped, List.length_cons] at shorter
    simp only [Scope.takeIndented]
    omega

def readFrom (scope : Scope) (bound : Option Nat) (lines : Block) : List Entry × Block :=
  if _h : scope.endsAt lines then ([], lines)
  else
    let first := take scope bound lines
    let others := readFrom scope bound first.2
    (first.1 :: others.1, others.2)
termination_by lines.length
decreasing_by
  have := length_take_le scope bound (fun empty : lines = [] => _h (by rw [empty]; rfl))
  omega

def read (scope : Scope) (bound : Option Nat) (lines : Block) : List Entry × Block :=
  readFrom scope bound (Block.skipBlanks lines)

theorem length_readFrom_le (scope : Scope) (bound : Option Nat) (lines : Block) :
    (readFrom scope bound lines).2.length ≤ lines.length := by
  fun_induction readFrom scope bound lines with
  | case1 => exact Nat.le_refl _
  | case2 lines ends first others ih =>
    have shorter : first.1.block.length + 1 + first.2.length ≤ lines.length :=
      length_take_le scope bound (fun empty => ends (by rw [empty]; rfl))
    have rest : others.2.length ≤ first.2.length := ih
    exact Nat.le_trans rest (by omega)

theorem length_read_le (scope : Scope) (bound : Option Nat) (lines : Block) :
    (read scope bound lines).2.length ≤ lines.length :=
  Nat.le_trans (length_readFrom_le scope bound _) (Block.length_skipBlanks_le lines)

end Entry

end DocMarkup
