import DocMarkup.Proofs.Outline.Build
import Mathlib.Data.List.Chain

namespace DocMarkup

def Statement.heading (s : Statement) : StatementKind × Nat × Nat :=
  (StatementKind.ofText s.text, s.line, s.indent)

def OutlineNode.heading (node : OutlineNode) : StatementKind × Nat × Nat :=
  (node.kind, node.line, node.indent)

/-- A node with the node that it is a child of. A root has none. -/
structure PlacedNode where
  node : OutlineNode
  parent : Option OutlineNode

mutual

def OutlineNode.placed (parent : Option OutlineNode) : OutlineNode → List PlacedNode
  | ⟨kind, line, indent, children⟩ =>
    ⟨⟨kind, line, indent, children⟩, parent⟩ ::
      Outline.placed (some ⟨kind, line, indent, children⟩) children

/-- All nodes of an outline, in pre-order, when its roots are children of `parent`. -/
def Outline.placed (parent : Option OutlineNode) : Outline → List PlacedNode
  | [] => []
  | node :: rest => node.placed parent ++ Outline.placed parent rest

end

namespace Outline

theorem placed_cons (parent : Option OutlineNode) (node : OutlineNode) (rest : Outline) :
    placed parent (node :: rest) =
      ⟨node, parent⟩ :: (placed (some node) node.children ++ placed parent rest) := by
  cases node
  rfl

theorem mem_placed_of_mem {outline : Outline} {node : OutlineNode} (member : node ∈ outline)
    (parent : Option OutlineNode) : ⟨node, parent⟩ ∈ placed parent outline := by
  induction outline with
  | nil => cases member
  | cons first rest ih =>
    rw [placed_cons]
    rcases List.mem_cons.mp member with rfl | member
    · exact List.mem_cons_self
    · exact List.mem_cons_of_mem _ (List.mem_append_right _ (ih member))

def preorder (outline : Outline) : List OutlineNode :=
  (placed none outline).map PlacedNode.node

theorem ofStatements_nil : ofStatements [] = [] := by
  rw [ofStatements]

theorem map_heading_placed (parent : Option OutlineNode) (statements : List Statement) :
    (placed parent (ofStatements statements)).map (fun entry => entry.node.heading) =
      statements.map Statement.heading := by
  fun_induction ofStatements statements generalizing parent with
  | case1 => rfl
  | case2 s rest below behind =>
    rw [placed_cons, List.map_cons, List.map_append, below, behind, ← List.map_append,
      List.takeWhile_append_dropWhile]
    rfl

theorem exists_statement_of_mem_placed {parent : Option OutlineNode} {statements : List Statement}
    {entry : PlacedNode} (member : entry ∈ placed parent (ofStatements statements)) :
    ∃ s ∈ statements, entry.node.heading = s.heading := by
  have listed := List.mem_map_of_mem (f := fun entry => entry.node.heading) member
  rw [map_heading_placed] at listed
  obtain ⟨s, inside, same⟩ := List.mem_map.mp listed
  exact ⟨s, inside, same.symm⟩

theorem indent_eq_of_heading {node : OutlineNode} {s : Statement}
    (same : node.heading = s.heading) : node.indent = s.indent := congrArg (·.2.2) same

theorem line_eq_of_heading {node : OutlineNode} {s : Statement}
    (same : node.heading = s.heading) : node.line = s.line := congrArg (·.2.1) same

theorem ofStatements_congr {statements statements' : List Statement}
    (same : statements.map Statement.heading = statements'.map Statement.heading) :
    ofStatements statements = ofStatements statements' := by
  fun_induction ofStatements statements generalizing statements' with
  | case1 =>
    rw [List.map_eq_nil_iff.mp same.symm, ofStatements_nil]
  | case2 s rest below behind =>
    cases statements' with
    | nil => cases same
    | cons t rest' =>
      rw [List.map_cons, List.map_cons, List.cons.injEq] at same
      obtain ⟨first, others⟩ := same
      have kind : StatementKind.ofText s.text = StatementKind.ofText t.text := congrArg (·.1) first
      have line : s.line = t.line := congrArg (·.2.1) first
      have indent : s.indent = t.indent := congrArg (·.2.2) first
      have taken := congrArg (List.takeWhile fun heading => s.indent < heading.2.2) others
      have left := congrArg (List.dropWhile fun heading => s.indent < heading.2.2) others
      rw [List.takeWhile_map, List.takeWhile_map] at taken
      rw [List.dropWhile_map, List.dropWhile_map] at left
      rw [below taken, behind left, ofStatements, kind, line, indent]
      rfl

theorem exists_children_of_mem_placed {parent : Option OutlineNode} {statements : List Statement}
    {entry : PlacedNode} (member : entry ∈ placed parent (ofStatements statements)) :
    ∃ below, entry.node.children = ofStatements below ∧
      ∀ s ∈ below, entry.node.indent < s.indent := by
  fun_induction ofStatements statements generalizing parent with
  | case1 => cases member
  | case2 s rest below behind =>
    rw [placed_cons] at member
    rcases List.mem_cons.mp member with rfl | member
    · refine ⟨_, rfl, ?_⟩
      intro t inside
      exact indent_lt_of_mem_takeWhile inside
    · rcases List.mem_append.mp member with member | member
      · exact below member
      · exact behind member

theorem head?_ofStatements (statements : List Statement) :
    (ofStatements statements).head?.map OutlineNode.heading =
      statements.head?.map Statement.heading := by
  cases statements with
  | nil => rw [ofStatements_nil]; rfl
  | cons s rest => rw [ofStatements]; rfl

def NeverDeepens (siblings : Outline) : Prop :=
  siblings.IsChain fun first next => next.indent ≤ first.indent

theorem neverDeepens_ofStatements (statements : List Statement) :
    NeverDeepens (ofStatements statements) := by
  fun_induction ofStatements statements with
  | case1 => exact List.isChain_nil
  | case2 s rest _ behind =>
    refine List.isChain_cons.mpr ⟨?_, behind⟩
    intro node first
    have same := head?_ofStatements (rest.dropWhile (s.indent < ·.indent))
    rw [first] at same
    obtain ⟨t, front, same⟩ := Option.map_eq_some_iff.mp same.symm
    rw [indent_eq_of_heading same.symm]
    exact indent_le_of_head?_dropWhile front

theorem indent_lt_of_mem_children {parent : Option OutlineNode} {statements : List Statement}
    {entry : PlacedNode} (member : entry ∈ placed parent (ofStatements statements))
    {child : OutlineNode} (inside : child ∈ entry.node.children) :
    entry.node.indent < child.indent := by
  obtain ⟨below, same, deeper⟩ := exists_children_of_mem_placed member
  rw [same] at inside
  obtain ⟨s, listed, heading⟩ := exists_statement_of_mem_placed (mem_placed_of_mem inside none)
  rw [indent_eq_of_heading heading]
  exact deeper s listed

def enclosing? (earlier : List OutlineNode) (indent : Nat) : Option OutlineNode :=
  earlier.reverse.find? (·.indent < indent)

theorem enclosing?_concat_of_lt {node : OutlineNode} {indent : Nat} (less : node.indent < indent)
    (earlier : List OutlineNode) : enclosing? (earlier ++ [node]) indent = some node := by
  rw [enclosing?, List.reverse_append]
  exact List.find?_cons_of_pos (by simpa using less)

theorem enclosing?_append_of_le {later : List OutlineNode} {indent : Nat}
    (deep : ∀ node ∈ later, indent ≤ node.indent) (earlier : List OutlineNode) :
    enclosing? (earlier ++ later) indent = enclosing? earlier indent := by
  have passed : later.reverse.find? (·.indent < indent) = none := by
    rw [List.find?_eq_none]
    intro node member
    have := deep node (List.mem_reverse.mp member)
    simpa using this
  rw [enclosing?, List.reverse_append, List.find?_append, passed]
  rfl

/-- Every parent is the nearest node in front that is indented less, when `earlier` comes first. -/
def IsNested (earlier : List OutlineNode) (entries : List PlacedNode) : Prop :=
  ∀ before entry after, entries = before ++ entry :: after →
    entry.parent = enclosing? (earlier ++ before.map PlacedNode.node) entry.node.indent

theorem isNested_nil (earlier : List OutlineNode) : IsNested earlier [] := by
  intro before entry after cut
  simp at cut

theorem IsNested.cons {earlier : List OutlineNode} {entry : PlacedNode} {entries : List PlacedNode}
    (first : entry.parent = enclosing? earlier entry.node.indent)
    (rest : IsNested (earlier ++ [entry.node]) entries) : IsNested earlier (entry :: entries) := by
  intro before other after cut
  cases before with
  | nil =>
    obtain ⟨rfl, -⟩ := List.cons.inj cut
    rwa [List.map_nil, List.append_nil]
  | cons skipped before =>
    obtain ⟨rfl, behind⟩ := List.cons.inj cut
    have nested := rest before other after behind
    rwa [List.append_assoc] at nested

theorem IsNested.append {earlier : List OutlineNode} {entries later : List PlacedNode}
    (first : IsNested earlier entries)
    (rest : IsNested (earlier ++ entries.map PlacedNode.node) later) :
    IsNested earlier (entries ++ later) := by
  intro before entry after cut
  rcases List.append_eq_append_iff.mp cut with ⟨more, rfl, behind⟩ | ⟨more, rfl, behind⟩
  · have nested := rest more entry after behind
    rwa [List.append_assoc, ← List.map_append] at nested
  · cases more with
    | nil =>
      have nested := rest [] entry after behind.symm
      simpa using nested
    | cons other more =>
      obtain ⟨rfl, -⟩ := List.cons.inj behind
      exact first before entry more rfl

def Encloses (earlier : List OutlineNode) (parent : Option OutlineNode) (indent : Nat) : Prop :=
  ∀ n ≤ indent, (∀ node ∈ parent, node.indent < n) → enclosing? earlier n = parent

theorem isNested_placed (statements : List Statement) (earlier : List OutlineNode)
    (parent : Option OutlineNode)
    (deeper : ∀ s ∈ statements, ∀ node ∈ parent, node.indent < s.indent)
    (encloses : ∀ s ∈ statements.head?, Encloses earlier parent s.indent) :
    IsNested earlier (placed parent (ofStatements statements)) := by
  fun_induction ofStatements statements generalizing earlier parent with
  | case1 => exact isNested_nil earlier
  | case2 s rest below behind =>
    rw [placed_cons]
    have atFirst := encloses s rfl
    have own := atFirst _ (Nat.le_refl _) (deeper s List.mem_cons_self)
    refine IsNested.cons own.symm (IsNested.append ?_ ?_)
    -- Below the first statement that statement is the nearest, whatever came before it.
    · refine below _ _ ?_ ?_
      · rintro t inside _ ⟨⟩
        exact indent_lt_of_mem_takeWhile inside
      · intro t _ n _ less
        exact enclosing?_concat_of_lt (less _ rfl) earlier
    -- Behind them neither it nor what is below it is near enough, so `parent` is nearest again.
    · refine behind _ _ ?_ ?_
      · intro t inside
        exact deeper t (List.mem_cons_of_mem _ ((List.dropWhile_suffix _).subset inside))
      · intro t first n bound less
        have shallow := indent_le_of_head?_dropWhile first
        rw [List.append_assoc, enclosing?_append_of_le]
        · exact atFirst n (Nat.le_trans bound shallow) less
        · intro node member
          rcases List.mem_append.mp member with same | member
          · rw [List.mem_singleton.mp same]
            exact Nat.le_trans bound shallow
          · obtain ⟨entry, inside, rfl⟩ := List.mem_map.mp member
            obtain ⟨u, taken, same⟩ := exists_statement_of_mem_placed inside
            have deep := indent_lt_of_mem_takeWhile taken
            rw [indent_eq_of_heading same]
            omega

end Outline

namespace Statement

theorem exists_line_of_mem_startsFrom {number : Nat} {state : SourceState} {lines : List Text}
    {s : Statement} (member : s ∈ startsFrom number state lines) :
    ∃ i line, lines[i]? = some line ∧ s = ofLine (number + i) line := by
  induction lines generalizing number state with
  | nil => cases member
  | cons line rest ih =>
    have behind : s ∈ startsFrom (number + 1) (state.next line) rest →
        ∃ i line', (line :: rest)[i]? = some line' ∧ s = ofLine (number + i) line' := by
      intro member
      obtain ⟨i, line', found, same⟩ := ih member
      refine ⟨i + 1, line', found, ?_⟩
      rw [same, Nat.add_assoc, Nat.add_comm 1]
    simp only [startsFrom] at member
    split at member
    · rcases List.mem_cons.mp member with rfl | member
      · exact ⟨0, line, rfl, rfl⟩
      · exact behind member
    · exact behind member

theorem pairwise_startsFrom (number : Nat) (state : SourceState) (lines : List Text) :
    (startsFrom number state lines).Pairwise fun s t => s.line < t.line := by
  induction lines generalizing number state with
  | nil => exact List.Pairwise.nil
  | cons line rest ih =>
    simp only [startsFrom]
    split
    · refine List.Pairwise.cons ?_ (ih _ _)
      intro t member
      obtain ⟨i, line', -, rfl⟩ := exists_line_of_mem_startsFrom member
      show number < number + 1 + i
      omega
    · exact ih _ _

end Statement

namespace Outline

/-- The outline of a source, built in one pass, is the forest of its statements: in pre-order its
nodes are the statements, no two from one line, and each stands under the nearest one in front that
is indented less. So a child is indented deeper than its parent, and no sibling deeper than the one
before. -/
theorem ofSource_isForest (source : Text) :
    ofSource source = build (Statement.starts source) ∧
      (ofSource source).preorder.map OutlineNode.heading =
        (Statement.starts source).map Statement.heading ∧
      ((Statement.starts source).Pairwise fun s t => s.line < t.line) ∧
      IsNested [] (placed none (ofSource source)) ∧
      NeverDeepens (ofSource source) ∧
      ∀ entry ∈ placed none (ofSource source), NeverDeepens entry.node.children ∧
        ∀ child ∈ entry.node.children, entry.node.indent < child.indent := by
  refine ⟨(build_eq_ofStatements _).symm, ?_, Statement.pairwise_startsFrom _ _ _, ?_,
    neverDeepens_ofStatements _, ?_⟩
  · rw [preorder, List.map_map]
    exact map_heading_placed none (Statement.starts source)
  · refine isNested_placed _ [] none ?_ ?_
    · intro _ _ _ absurd
      cases absurd
    · intro _ _ _ _ _
      rfl
  · intro entry member
    refine ⟨?_, fun child inside => indent_lt_of_mem_children member inside⟩
    obtain ⟨below, same, -⟩ := exists_children_of_mem_placed member
    rw [same]
    exact neverDeepens_ofStatements below

example : (placed none (ofSource "class A:\n        x = 1\n    y = 2\nz = 3\n")).map
    (fun entry => (entry.node.line, entry.parent.map OutlineNode.line)) =
      [(1, none), (2, some 1), (3, some 1), (4, none)] := by decide +kernel

end Outline

end DocMarkup
