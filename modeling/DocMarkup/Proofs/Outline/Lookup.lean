import DocMarkup.Proofs.Outline.Forest
import DocMarkup.Proofs.Outline.Kind
import DocMarkup.Proofs.Outline.Targets
import Mathlib.Data.List.Forall2

namespace DocMarkup

namespace OutlineNode

def Defines (node : OutlineNode) (name : Text) : Prop :=
  node.kind = .classDef name ∨ node.kind = .function name

end OutlineNode

namespace Outline

/-- The node stands in the outline below the nodes `above`, of which the first is a root. -/
inductive Leads : Outline → List OutlineNode → OutlineNode → Prop where
  | root {outline : Outline} {node : OutlineNode} : node ∈ outline → Leads outline [] node
  | child {outline : Outline} {parent node : OutlineNode} {above : List OutlineNode} :
      parent ∈ outline → Leads parent.children above node → Leads outline (parent :: above) node

def named? (outline : Outline) (name : Text) : Option OutlineNode :=
  List.find? (fun node => node.kind.names.contains name) outline

theorem mem_of_named? {outline : Outline} {name : Text} {node : OutlineNode}
    (found : outline.named? name = some node) : node ∈ outline :=
  List.mem_of_find?_eq_some found

theorem mem_names_of_named? {outline : Outline} {name : Text} {node : OutlineNode}
    (found : outline.named? name = some node) : name ∈ node.kind.names := by
  have holds := List.find?_some found
  simpa using holds

theorem defines_or_assigns {node : OutlineNode} {name : Text} (member : name ∈ node.kind.names) :
    node.Defines name ∨ ∃ targets, node.kind = .assignment targets ∧ name ∈ targets := by
  cases same : node.kind with
  | classDef other =>
    rw [same] at member
    rw [List.mem_singleton.mp member]
    exact Or.inl (Or.inl same)
  | function other =>
    rw [same] at member
    rw [List.mem_singleton.mp member]
    exact Or.inl (Or.inr same)
  | assignment targets =>
    rw [same] at member
    exact Or.inr ⟨targets, rfl, member⟩
  | other =>
    rw [same] at member
    cases member

/-- How a search goes: an assignment ends it, and a class or a function ends it at the last name and
is searched for all others. -/
inductive Finds : Outline → List Text → List OutlineNode → OutlineNode → Prop where
  | assigned {outline : Outline} {name : Text} {path : List Text} {node : OutlineNode}
      {targets : List Text} : outline.named? name = some node → node.kind = .assignment targets →
      name ∈ targets → Finds outline (name :: path) [] node
  | defined {outline : Outline} {name : Text} {node : OutlineNode} :
      outline.named? name = some node → node.Defines name → Finds outline [name] [] node
  | within {outline : Outline} {name next : Text} {path : List Text} {parent node : OutlineNode}
      {above : List OutlineNode} : outline.named? name = some parent → parent.Defines name →
      Finds parent.children (next :: path) above node →
      Finds outline (name :: next :: path) (parent :: above) node

theorem find?_assigned {outline : Outline} {name : Text} {node : OutlineNode} {targets : List Text}
    (first : outline.named? name = some node) (kind : node.kind = .assignment targets)
    (path : List Text) : outline.find? (name :: path) = some node := by
  rw [named?] at first
  simp only [find?, first, kind]

theorem find?_defined {outline : Outline} {name : Text} {node : OutlineNode}
    (first : outline.named? name = some node) (defines : node.Defines name) (path : List Text) :
    outline.find? (name :: path) =
      if path.isEmpty then some node else find? node.children path := by
  rw [named?] at first
  rcases defines with kind | kind <;> simp only [find?, first, kind]

theorem find?_eq_some_iff {outline : Outline} {path : List Text} {node : OutlineNode} :
    outline.find? path = some node ↔ ∃ above, Finds outline path above node := by
  constructor
  · intro found
    induction path generalizing outline with
    | nil => cases found
    | cons name path ih =>
      cases first : outline.named? name with
      | none =>
        rw [named?] at first
        simp only [find?, first] at found
        cases found
      | some node' =>
        rcases defines_or_assigns (mem_names_of_named? first) with defines | ⟨targets, kind, inside⟩
        · rw [find?_defined first defines] at found
          cases path with
          | nil =>
            cases found
            exact ⟨[], .defined first defines⟩
          | cons next path =>
            obtain ⟨above, finds⟩ := ih found
            exact ⟨node' :: above, .within first defines finds⟩
        · rw [find?_assigned first kind] at found
          cases found
          exact ⟨[], .assigned first kind inside⟩
  · rintro ⟨above, finds⟩
    induction finds with
    | assigned first kind _ => exact find?_assigned first kind _
    | defined first defines => exact find?_defined first defines []
    | within first defines _ ih => exact (find?_defined first defines _).trans ih

theorem Finds.leads {outline : Outline} {path : List Text} {above : List OutlineNode}
    {node : OutlineNode} (finds : Finds outline path above node) :
    Leads outline above node ∧
      ∃ taken name rest, path = taken ++ name :: rest ∧
        List.Forall₂ OutlineNode.Defines above taken ∧
        (rest = [] ∧ node.Defines name ∨
          ∃ targets, node.kind = .assignment targets ∧ name ∈ targets) := by
  induction finds with
  | @assigned _ name path _ targets first kind inside =>
    exact ⟨.root (mem_of_named? first), [], name, path, rfl, .nil, Or.inr ⟨targets, kind, inside⟩⟩
  | @defined _ name _ first defines =>
    exact ⟨.root (mem_of_named? first), [], name, [], rfl, .nil, Or.inl ⟨rfl, defines⟩⟩
  | @within _ name _ _ _ _ _ first defines _ ih =>
    obtain ⟨leads, taken, last, rest, same, names, kind⟩ := ih
    refine ⟨.child (mem_of_named? first) leads, name :: taken, last, rest, ?_, .cons defines names,
      kind⟩
    rw [same, List.cons_append]

theorem Finds.find?_of_isPrefix {outline : Outline} {path : List Text} {above : List OutlineNode}
    {node : OutlineNode} (finds : Finds outline path above node) {start : List Text}
    (nonempty : start ≠ []) (begins : start <+: path) :
    ∃ answer ∈ above ++ [node], outline.find? start = some answer := by
  induction finds generalizing start with
  | assigned first kind _ =>
    obtain ⟨name, rest, rfl⟩ := List.exists_cons_of_ne_nil nonempty
    obtain ⟨rfl, -⟩ := List.cons_prefix_cons.mp begins
    exact ⟨_, List.mem_singleton_self _, find?_assigned first kind rest⟩
  | defined first defines =>
    obtain ⟨name, rest, rfl⟩ := List.exists_cons_of_ne_nil nonempty
    obtain ⟨rfl, nothing⟩ := List.cons_prefix_cons.mp begins
    rw [List.prefix_nil.mp nothing]
    exact ⟨_, List.mem_singleton_self _, find?_defined first defines []⟩
  | within first defines _ ih =>
    obtain ⟨name, rest, rfl⟩ := List.exists_cons_of_ne_nil nonempty
    obtain ⟨rfl, behind⟩ := List.cons_prefix_cons.mp begins
    cases rest with
    | nil => exact ⟨_, List.mem_cons_self, find?_defined first defines []⟩
    | cons next rest =>
      obtain ⟨answer, member, found⟩ := ih (List.cons_ne_nil _ _) behind
      exact ⟨answer, List.mem_cons_of_mem _ member, (find?_defined first defines _).trans found⟩

/-- In pre-order every node is on a later line than the one before. -/
def Ascends (parent : Option OutlineNode) (outline : Outline) : Prop :=
  (placed parent outline).Pairwise fun entry later => entry.node.line < later.node.line

theorem ascends_ofSource (source : Text) : Ascends none (ofSource source) := by
  have lines : ((Statement.starts source).map Statement.heading).Pairwise
      fun s t => s.2.1 < t.2.1 :=
    List.pairwise_map.mpr (Statement.pairwise_startsFrom 1 {} source.lines)
  rw [← map_heading_placed none, List.pairwise_map] at lines
  exact lines

theorem exists_placed_eq {outline : Outline} {node : OutlineNode} (member : node ∈ outline)
    (parent : Option OutlineNode) :
    ∃ before after, placed parent outline =
      before ++ (⟨node, parent⟩ :: placed (some node) node.children) ++ after := by
  induction outline with
  | nil => cases member
  | cons first rest ih =>
    rw [placed_cons]
    rcases List.mem_cons.mp member with rfl | member
    · exact ⟨[], placed parent rest, rfl⟩
    · obtain ⟨before, after, same⟩ := ih member
      refine ⟨⟨first, parent⟩ :: (placed (some first) first.children ++ before), after, ?_⟩
      rw [same]
      simp only [List.cons_append, List.append_assoc]

theorem Ascends.children {outline : Outline} {parent : Option OutlineNode}
    (ascends : Ascends parent outline) {node : OutlineNode} (member : node ∈ outline) :
    Ascends (some node) node.children ∧
      ∀ entry ∈ placed (some node) node.children, node.line < entry.node.line := by
  obtain ⟨before, after, same⟩ := exists_placed_eq member parent
  rw [Ascends, same, List.pairwise_append, List.pairwise_append] at ascends
  obtain ⟨first, rest⟩ := List.pairwise_cons.mp ascends.1.2.1
  exact ⟨rest, first⟩

theorem Leads.mem_placed {outline : Outline} {above : List OutlineNode} {node : OutlineNode}
    (leads : Leads outline above node) (parent : Option OutlineNode) :
    ∃ entry ∈ placed parent outline, entry.node = node := by
  induction leads generalizing parent with
  | root member => exact ⟨_, mem_placed_of_mem member parent, rfl⟩
  | @child _ next _ _ member _ ih =>
    obtain ⟨before, after, same⟩ := exists_placed_eq member parent
    obtain ⟨entry, inside, found⟩ := ih (some next)
    refine ⟨entry, ?_, found⟩
    rw [same]
    exact List.mem_append_left _ (List.mem_append_right _ (List.mem_cons_of_mem _ inside))

theorem Leads.line_lt {outline : Outline} {above : List OutlineNode} {node : OutlineNode}
    (leads : Leads outline above node) {parent : Option OutlineNode}
    (ascends : Ascends parent outline) : ∀ passed ∈ above, passed.line < node.line := by
  induction leads generalizing parent with
  | root => simp
  | child member leads ih =>
    obtain ⟨within, less⟩ := ascends.children member
    intro passed inside
    rcases List.mem_cons.mp inside with rfl | inside
    · obtain ⟨entry, placed, same⟩ := leads.mem_placed _
      rw [← same]
      exact less entry placed
    · exact ih within passed inside

theorem exists_line_of_mem_placed {source : Text} {parent : Option OutlineNode} {entry : PlacedNode}
    (member : entry ∈ placed parent (ofSource source)) :
    0 < entry.node.line ∧ ∃ line, source.lines[entry.node.line - 1]? = some line ∧
      entry.node.kind = StatementKind.ofText (Text.trimStart line) := by
  obtain ⟨s, started, same⟩ := exists_statement_of_mem_placed member
  obtain ⟨i, line, found, rfl⟩ := Statement.exists_line_of_mem_startsFrom started
  have number : entry.node.line = 1 + i := line_eq_of_heading same
  refine ⟨by omega, line, ?_, congrArg (·.1) same⟩
  rw [number, Nat.add_sub_cancel_left]
  exact found

/-- What is found by a path stands below classes and functions of the names that the path begins
with, on a line of the source that defines the last name of the path or assigns to the next one. All
paths that begin this one find the node or a node above it, on no later line. -/
theorem find?_sound {source : Text} {path : List Text} {node : OutlineNode}
    (found : (ofSource source).find? path = some node) :
    ∃ above taken name rest line,
      path = taken ++ name :: rest ∧
        Leads (ofSource source) above node ∧
        List.Forall₂ OutlineNode.Defines above taken ∧
        0 < node.line ∧ source.lines[node.line - 1]? = some line ∧
        (rest = [] ∧ (StatementKind.DefinesClass name line.trimStart ∨
            StatementKind.DefinesFunction name line.trimStart) ∨
          Assignment.Assigns name line.trimStart) ∧
        ∀ start, start ≠ [] → start <+: path → ∃ answer ∈ above ++ [node],
          (ofSource source).find? start = some answer ∧ answer.line ≤ node.line := by
  obtain ⟨above, finds⟩ := find?_eq_some_iff.mp found
  obtain ⟨leads, taken, name, rest, split, names, defines⟩ := finds.leads
  obtain ⟨entry, member, rfl⟩ := leads.mem_placed none
  obtain ⟨positive, line, numbered, kind⟩ := exists_line_of_mem_placed member
  refine ⟨above, taken, name, rest, line, split, leads, names, positive, numbered, ?_, ?_⟩
  · rcases defines with ⟨last, same | same⟩ | ⟨targets, same, inside⟩ <;> rw [kind] at same
    · exact Or.inl ⟨last, Or.inl (StatementKind.definesClass_of_ofText same)⟩
    · exact Or.inl ⟨last, Or.inr (StatementKind.definesFunction_of_ofText same)⟩
    · rw [← StatementKind.targets_of_ofText same] at inside
      exact Or.inr (Assignment.mem_targets_iff.mp inside)
  · intro start nonempty begins
    obtain ⟨answer, passed, answers⟩ := finds.find?_of_isPrefix nonempty begins
    refine ⟨answer, passed, answers, ?_⟩
    rcases List.mem_append.mp passed with passed | last
    · exact Nat.le_of_lt (leads.line_lt (ascends_ofSource source) answer passed)
    · rw [List.mem_singleton.mp last]

def sampleMembers : Text :=
  "class Shape:\n    sides = edges = 4  # both\n\n    def area(self):\n        return 0\n"

theorem find?_sampleMembers :
    ∃ node, (ofSource sampleMembers).find? ["Shape", "edges", "real"] = some node ∧ node.line = 2 ∧
      ∃ answer, (ofSource sampleMembers).find? ["Shape"] = some answer ∧ answer.line ≤ 2 := by
  have located : ((ofSource sampleMembers).find? ["Shape", "edges", "real"]).map OutlineNode.line =
      some 2 := by decide +kernel
  obtain ⟨node, found, line⟩ := Option.map_eq_some_iff.mp located
  obtain ⟨_, _, _, _, _, -, -, -, -, -, -, begins⟩ := find?_sound found
  obtain ⟨answer, -, answers, bound⟩ := begins ["Shape"] (List.cons_ne_nil _ _) ⟨_, rfl⟩
  exact ⟨node, found, line, answer, answers, line ▸ bound⟩

end Outline

end DocMarkup
