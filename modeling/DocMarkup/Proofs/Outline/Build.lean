import DocMarkup.Outline.Basic

namespace DocMarkup

namespace Outline

variable {s t : Statement} {rest : List Statement}

theorem indent_lt_of_mem_takeWhile (inside : t ∈ rest.takeWhile (s.indent < ·.indent)) :
    s.indent < t.indent :=
  of_decide_eq_true (List.all_eq_true.mp List.all_takeWhile t inside)

theorem indent_le_of_head?_dropWhile (first : t ∈ (rest.dropWhile (s.indent < ·.indent)).head?) :
    t.indent ≤ s.indent := by
  have shallow := List.head?_dropWhile_not (fun t : Statement => s.indent < t.indent) rest
  rw [first] at shallow
  simpa using shallow

end Outline

/-- An outline under construction. The innermost open node stands in front of the path. -/
structure OpenNodes where
  roots : Outline := []
  path : List OutlineNode := []

namespace OpenNodes

def graft (done : Outline) : OpenNodes → OpenNodes
  | ⟨roots, []⟩ => ⟨roots ++ done, []⟩
  | ⟨roots, parent :: outer⟩ =>
    ⟨roots, { parent with children := parent.children ++ done } :: outer⟩

theorem length_path_graft (done : Outline) (nodes : OpenNodes) :
    (nodes.graft done).path.length = nodes.path.length := by
  rcases nodes with ⟨roots, _ | ⟨parent, outer⟩⟩ <;> rfl

def closeTo (indent : Nat) : OpenNodes → OpenNodes
  | ⟨roots, []⟩ => ⟨roots, []⟩
  | ⟨roots, top :: outer⟩ =>
    if indent ≤ top.indent then closeTo indent (graft [top] ⟨roots, outer⟩)
    else ⟨roots, top :: outer⟩
termination_by nodes => nodes.path.length
decreasing_by
  rw [length_path_graft]
  exact Nat.lt_succ_self _

def push (node : OutlineNode) (nodes : OpenNodes) : OpenNodes :=
  { nodes with path := node :: nodes.path }

def add (nodes : OpenNodes) (s : Statement) : OpenNodes :=
  (nodes.closeTo s.indent).push ⟨StatementKind.ofText s.text, s.line, s.indent, []⟩

theorem graft_nil (nodes : OpenNodes) : nodes.graft [] = nodes := by
  rcases nodes with ⟨roots, _ | ⟨parent, outer⟩⟩
  · simp only [graft, List.append_nil]
  · cases parent
    simp only [graft, List.append_nil]

theorem graft_graft (done more : Outline) (nodes : OpenNodes) :
    (nodes.graft done).graft more = nodes.graft (done ++ more) := by
  rcases nodes with ⟨roots, _ | ⟨parent, outer⟩⟩ <;> simp only [graft, List.append_assoc]

def IsBelow (indent : Nat) (nodes : OpenNodes) : Prop :=
  ∀ top ∈ nodes.path.head?, top.indent < indent

theorem IsBelow.graft {indent : Nat} {nodes : OpenNodes} (less : nodes.IsBelow indent)
    (done : Outline) : (nodes.graft done).IsBelow indent := by
  rcases nodes with ⟨roots, _ | ⟨parent, outer⟩⟩
  · exact less
  · rintro _ ⟨⟩
    exact less parent rfl

theorem closeTo_of_isBelow {indent : Nat} {nodes : OpenNodes} (less : nodes.IsBelow indent) :
    nodes.closeTo indent = nodes := by
  rcases nodes with ⟨roots, _ | ⟨top, outer⟩⟩
  · rw [closeTo]
  · rw [closeTo, if_neg (Nat.not_le_of_lt (less top rfl))]

theorem closeTo_push_of_le {indent : Nat} {node : OutlineNode} (deep : indent ≤ node.indent)
    (nodes : OpenNodes) :
    (nodes.push node).closeTo indent = (nodes.graft [node]).closeTo indent := by
  rw [push, closeTo, if_pos deep]

theorem foldl_add_congr {nodes nodes' : OpenNodes} {statements : List Statement}
    (same : ∀ s ∈ statements.head?, nodes.closeTo s.indent = nodes'.closeTo s.indent)
    {indent : Nat} (closed : nodes.closeTo indent = nodes'.closeTo indent) :
    (statements.foldl add nodes).closeTo indent = (statements.foldl add nodes').closeTo indent := by
  cases statements with
  | nil => exact closed
  | cons s rest =>
    have added : nodes.add s = nodes'.add s := by rw [add, add, same s rfl]
    rw [List.foldl_cons, List.foldl_cons, added]

theorem closeTo_foldl_add (statements : List Statement) (nodes : OpenNodes) (indent : Nat)
    (bounded : ∀ s ∈ statements, indent ≤ s.indent)
    (deeper : ∀ s ∈ statements, nodes.IsBelow s.indent) :
    (statements.foldl add nodes).closeTo indent =
      (nodes.graft (Outline.ofStatements statements)).closeTo indent := by
  fun_induction Outline.ofStatements statements generalizing nodes indent with
  | case1 => rw [graft_nil]; rfl
  | case2 s rest below behind =>
    let node (children : Outline) : OutlineNode :=
      ⟨StatementKind.ofText s.text, s.line, s.indent, children⟩
    let inner := Outline.ofStatements (rest.takeWhile (s.indent < ·.indent))
    have atFirst := closeTo_of_isBelow (deeper s List.mem_cons_self)
    have opened : nodes.add s = nodes.push (node []) := by rw [add, atFirst]
    -- The statements below the first are closed by the next one, like the first itself.
    have closed : ∀ i ≤ s.indent,
        ((rest.takeWhile (s.indent < ·.indent)).foldl add (nodes.add s)).closeTo i =
          (nodes.graft [node inner]).closeTo i := by
      intro i bound
      rw [opened, below]
      · exact closeTo_push_of_le bound nodes
      · intro t inside
        exact Nat.le_trans bound (Nat.le_of_lt (Outline.indent_lt_of_mem_takeWhile inside))
      · rintro t inside _ ⟨⟩
        exact Outline.indent_lt_of_mem_takeWhile inside
    have left : ∀ t ∈ rest.dropWhile (s.indent < ·.indent), t ∈ s :: rest := fun t inside =>
      List.mem_cons_of_mem _ ((List.dropWhile_suffix _).subset inside)
    calc ((s :: rest).foldl add nodes).closeTo indent
      _ = ((rest.dropWhile (s.indent < ·.indent)).foldl add
            ((rest.takeWhile (s.indent < ·.indent)).foldl add (nodes.add s))).closeTo indent := by
          rw [← List.foldl_append, List.takeWhile_append_dropWhile]
          rfl
      _ = ((rest.dropWhile (s.indent < ·.indent)).foldl add
            (nodes.graft [node inner])).closeTo indent := by
          refine foldl_add_congr ?_ (closed indent (bounded s List.mem_cons_self))
          intro t first
          exact closed _ (Outline.indent_le_of_head?_dropWhile first)
      _ = ((nodes.graft [node inner]).graft
            (Outline.ofStatements (rest.dropWhile (s.indent < ·.indent)))).closeTo indent :=
          behind _ _ (fun t inside => bounded t (left t inside))
            (fun t inside => (deeper t (left t inside)).graft _)
      _ = _ := by rw [graft_graft]; rfl

end OpenNodes

namespace Outline

def build (statements : List Statement) : Outline :=
  ((statements.foldl OpenNodes.add {}).closeTo 0).roots

theorem build_eq_ofStatements (statements : List Statement) :
    build statements = ofStatements statements := by
  rw [build, OpenNodes.closeTo_foldl_add]
  · rw [OpenNodes.graft, OpenNodes.closeTo, List.nil_append]
  · intro s _
    exact Nat.zero_le _
  · rintro s _ _ ⟨⟩

end Outline

end DocMarkup
