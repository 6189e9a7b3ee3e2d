import DocMarkup.Parser
import DocMarkup.Proofs.Section.Extent

namespace DocMarkup

section Cut

variable {α : Type} {stop : List α → Bool}

theorem cutBefore_eq_span {keeps : α → Bool} {list : List α}
    (same : ∀ a ∈ list, ∀ rest, stop (a :: rest) = !keeps a) :
    cutBefore stop list = (list.takeWhile keeps, list.dropWhile keeps) := by
  induction list with
  | nil => rfl
  | cons a list ih =>
    have behind := ih fun b member => same b (List.mem_cons_of_mem _ member)
    rw [cutBefore, same a List.mem_cons_self, behind]
    cases kept : keeps a <;> simp [kept]

theorem cutBefore_append_of_continues {inner : List α}
    (inside : ∀ a ∈ inner, ∀ rest, stop (a :: rest) = false) (left : List α) :
    cutBefore stop (inner ++ left) =
      (inner ++ (cutBefore stop left).1, (cutBefore stop left).2) := by
  induction inner with
  | nil => rfl
  | cons a inner ih =>
    have behind := ih fun b member => inside b (List.mem_cons_of_mem _ member)
    rw [List.cons_append, cutBefore, inside a List.mem_cons_self, behind]
    rfl

end Cut

def Text.isBelow (n : Nat) (line : Text) : Bool := line.isEmpty || n < line.indent

namespace Scope

variable {scope : Scope} {n : Nat} {line : Text}

/-- Content that is indented by `n` belongs to the scope. -/
def Holds (scope : Scope) (n : Nat) : Prop := ∀ m, scope.bodyIndent = some m → m ≤ n

theorem holds_of_continues {rest : Block} (continues : scope.endsAt (line :: rest) = false)
    (content : line ≠ []) : scope.Holds line.indent := by
  intro m body
  have stays : scope.leaves line = false := (Bool.or_eq_false_iff.mp continues).2
  have inside : line.isIndented m = true := by simpa [leaves, body, content] using stays
  exact (Text.isIndented_iff.mp inside).2

theorem contains_of_isBelow (holds : scope.Holds n) (solid : line.Solid)
    (below : line.isBelow n = true) : scope.Contains line := by
  intro rest
  by_cases blank : line = []
  · subst blank
    cases body : scope.bodyIndent <;> simp [endsAt, leaves, Registry.headerAt?_blank, body]
  · have deeper : n < line.indent := by simpa [Text.isBelow, blank] using below
    have noHeader : scope.registry.headerAt? (line :: rest) = none :=
      Registry.headerAt?_of_indented (Nat.zero_lt_of_lt deeper) rest
    have stays : scope.leaves line = false := by
      cases body : scope.bodyIndent with
      | none => simp [leaves, body]
      | some m =>
        have deep : m ≤ line.indent := Nat.le_trans (holds m body) (Nat.le_of_lt deeper)
        simp [leaves, body, (solid.isIndented_iff blank).mpr deep]
    simp [endsAt, noHeader, stays]

theorem endsBlockAt_eq (holds : scope.Holds n) (solid : line.Solid) (rest : Block) :
    scope.endsBlockAt (n + 1) (line :: rest) = !line.isBelow n := by
  have indented : (line.isEmpty || line.isIndented (n + 1)) = line.isBelow n := by
    by_cases blank : line = []
    · simp [blank, Text.isBelow]
    · have filled : line.isEmpty = false := by simpa using blank
      have deeper : line.isIndented (n + 1) = true ↔ n < line.indent :=
        (solid.isIndented_iff blank).trans Nat.succ_le_iff
      rw [Text.isBelow, filled, Bool.false_or, Bool.false_or]
      exact Bool.eq_iff_iff.mpr (deeper.trans decide_eq_true_iff.symm)
  rw [endsBlockAt, indented]
  cases below : line.isBelow n with
  | false => simp
  | true => simp [contains_of_isBelow holds solid below rest]

theorem takeIndented_eq (holds : scope.Holds n) {lines : Block}
    (solid : ∀ line ∈ lines, line.Solid) :
    scope.takeIndented (n + 1) lines =
      (lines.takeWhile (Text.isBelow n), lines.dropWhile (Text.isBelow n)) :=
  cutBefore_eq_span fun line member rest => endsBlockAt_eq holds (solid line member) rest

end Scope

namespace Entry

def lines (entry : Entry) : Block := entry.header :: entry.block

def linesOf (entries : List Entry) : Block := entries.flatMap lines

/-- The entries in front of `behind` begin with content, each has the longest run of blank and
deeper lines below its header, and none is indented deeper than one in front of it. -/
structure Groups (entries : List Entry) (behind : Block) : Prop where
  headed : ∀ entry ∈ entries, entry.header ≠ []
  maximal : ∀ before entry after, entries = before ++ entry :: after →
    entry.block =
      (entry.block ++ (linesOf after ++ behind)).takeWhile (Text.isBelow entry.header.indent)
  falling : entries.Pairwise fun earlier later => later.header.indent ≤ earlier.header.indent

def Taken (scope : Scope) (bound : Option Nat) (entries : List Entry) (behind : Block) : Prop :=
  ∀ before entry after, entries = before ++ entry :: after →
    take scope bound (entry.lines ++ (linesOf after ++ behind)) = (entry, linesOf after ++ behind)

theorem groups_nil (behind : Block) : Groups [] behind where
  headed := nofun
  maximal before entry after whole := by simp at whole
  falling := List.Pairwise.nil

variable {entries : List Entry} {behind : Block}

theorem head?_linesOf_append {entry : Entry} (member : entry ∈ entries.head?) :
    entry.header ∈ (linesOf entries ++ behind).head? := by
  obtain ⟨others, rfl⟩ := List.head?_eq_some_iff.mp member
  rfl

theorem Groups.cons {header : Text} {rest : Block} (content : header ≠ [])
    (whole : linesOf entries ++ behind = rest.dropWhile (Text.isBelow header.indent))
    (groups : Groups entries behind) :
    Groups (⟨header, rest.takeWhile (Text.isBelow header.indent)⟩ :: entries) behind where
  headed := List.forall_mem_cons.mpr ⟨content, groups.headed⟩
  maximal := by
    intro before entry after same
    cases before with
    | nil =>
      obtain ⟨rfl, rfl⟩ := List.cons.inj same
      rw [whole, List.takeWhile_append_dropWhile]
    | cons first before => exact groups.maximal before entry after (List.cons.inj same).2
  falling := by
    refine List.pairwise_cons.mpr ⟨?_, groups.falling⟩
    -- The first of the others begins where the run ends, and the rest are not deeper than it.
    have first : ∀ entry ∈ entries.head?, entry.header.indent ≤ header.indent := by
      intro entry member
      have stops := List.head?_dropWhile_not (Text.isBelow header.indent) rest
      rw [← whole, head?_linesOf_append member] at stops
      have shallow : ¬ header.indent < entry.header.indent := by
        simpa [Text.isBelow] using (Bool.or_eq_false_iff.mp stops).2
      exact Nat.le_of_not_lt shallow
    intro entry member
    cases entries with
    | nil => cases member
    | cons next others =>
      have bound := first next rfl
      rcases List.mem_cons.mp member with rfl | inside
      · exact bound
      · exact Nat.le_trans ((List.pairwise_cons.mp groups.falling).1 entry inside) bound

variable {scope : Scope}

theorem Taken.cons {bound : Option Nat} {first : Entry}
    (taken : take scope bound (first.lines ++ (linesOf entries ++ behind)) =
      (first, linesOf entries ++ behind))
    (calls : Taken scope bound entries behind) : Taken scope bound (first :: entries) behind := by
  intro before entry after same
  cases before with
  | nil =>
    obtain ⟨rfl, rfl⟩ := List.cons.inj same
    exact taken
  | cons other before => exact calls before entry after (List.cons.inj same).2

theorem take_eq (bound : Option Nat) {header : Text} {rest : Block}
    (whole : Wrapped.isStart header = false) (holds : scope.Holds header.indent)
    (solid : ∀ line ∈ rest, line.Solid) :
    take scope bound (header :: rest) =
      (⟨header, rest.takeWhile (Text.isBelow header.indent)⟩,
        rest.dropWhile (Text.isBelow header.indent)) := by
  simp only [take, unwrap_eq_self whole, Scope.takeIndented_eq holds solid]

theorem cutBefore_endsAt_cons {header : Text} {rest : Block}
    (continues : scope.endsAt (header :: rest) = false) (holds : scope.Holds header.indent)
    (solid : ∀ line ∈ rest, line.Solid) :
    cutBefore scope.endsAt (header :: rest) =
      (cutBefore scope.endsAt (rest.dropWhile (Text.isBelow header.indent))).map
        (header :: rest.takeWhile (Text.isBelow header.indent) ++ ·) id := by
  have below : ∀ line ∈ rest.takeWhile (Text.isBelow header.indent), scope.Contains line := by
    intro line member
    have inRest := (List.takeWhile_sublist _).subset member
    have deeper := List.all_eq_true.mp List.all_takeWhile line member
    exact Scope.contains_of_isBelow holds (solid line inRest) deeper
  have parts := cutBefore_append_of_continues below
    (rest.dropWhile (Text.isBelow header.indent))
  rw [List.takeWhile_append_dropWhile] at parts
  rw [cutBefore, continues, parts]
  rfl

theorem readFrom_groups (bound : Option Nat) {lines : Block} (solid : ∀ line ∈ lines, line.Solid)
    (starts : ∀ line ∈ lines.head?, line ≠ [])
    (whole : ∀ line ∈ (cutBefore scope.endsAt lines).1, Wrapped.isStart line = false) :
    (readFrom scope bound lines).map linesOf id = cutBefore scope.endsAt lines ∧
      Groups (readFrom scope bound lines).1 (readFrom scope bound lines).2 ∧
      Taken scope bound (readFrom scope bound lines).1 (readFrom scope bound lines).2 := by
  fun_induction readFrom scope bound lines with
  | case1 lines ends =>
    have nothing : cutBefore scope.endsAt lines = ([], lines) := by
      cases lines with
      | nil => rfl
      | cons line rest => rw [cutBefore, if_pos ends]
    rw [nothing]
    exact ⟨rfl, groups_nil lines, fun before entry after same => by simp at same⟩
  | case2 lines open_ first others ih =>
    obtain ⟨header, rest, rfl⟩ : ∃ header rest, lines = header :: rest :=
      List.exists_cons_of_ne_nil fun empty => open_ (by rw [empty]; rfl)
    have content : header ≠ [] := starts header rfl
    have continues : scope.endsAt (header :: rest) = false := by simpa using open_
    have holds := Scope.holds_of_continues continues content
    have below : ∀ line ∈ rest, line.Solid := fun line member =>
      solid line (List.mem_cons_of_mem _ member)
    have cut := cutBefore_endsAt_cons continues holds below
    rw [cut] at whole
    have single : Wrapped.isStart header = false := whole header List.mem_cons_self
    have taken : first = _ := take_eq bound single holds below
    have left : first.2 = rest.dropWhile (Text.isBelow header.indent) := congrArg Prod.snd taken
    obtain ⟨lines, groups, calls⟩ := ih
      (by
        rw [left]
        exact fun line member => below line ((List.dropWhile_sublist _).subset member))
      (by
        rw [left]
        intro line member blank
        have stops := List.head?_dropWhile_not (Text.isBelow header.indent) rest
        rw [Option.mem_def.mp member, blank] at stops
        cases stops)
      (by
        rw [left]
        exact fun line member => whole line (List.mem_append_right _ member))
    have parts : linesOf others.1 ++ others.2 =
        rest.dropWhile (Text.isBelow header.indent) := by
      have both := cutBefore_append scope.endsAt first.2
      rw [← lines] at both
      rw [← left]
      exact both
    have head : first.1 = ⟨header, rest.takeWhile (Text.isBelow header.indent)⟩ :=
      congrArg Prod.fst taken
    refine ⟨?_, ?_, ?_⟩
    · rw [cut, ← left, ← lines, head]
      rfl
    · rw [head]
      exact groups.cons content parts
    · refine Taken.cons ?_ calls
      have back : first.1.lines ++ (linesOf others.1 ++ others.2) = header :: rest := by
        rw [head, parts, Entry.lines, List.cons_append, List.takeWhile_append_dropWhile]
      rw [back, parts, ← left]

end Entry

namespace SectionContext

variable (context : SectionContext)

def extent (lines : Block) : Block × Block :=
  cutBefore (context.scope lines).endsAt (Block.skipBlanks lines)

/-- The fields of a section without wrapped headers are those of groups that share out its body.
Whatever is read from a header, a field is read from the lines of one group and leaves those of the
groups behind it. -/
theorem fields_groups (style : EntryStyle) {lines : Block} (solid : ∀ line ∈ lines, line.Solid)
    (whole : ∀ line ∈ (context.extent lines).1, Wrapped.isStart line = false) :
    ∃ entries : List Entry,
      Entry.linesOf entries = (context.extent lines).1 ∧
      Entry.Groups entries (context.extent lines).2 ∧
      context.fields style lines =
        (Field.ofEntries context.typeMarkup context.describe style entries,
          (context.extent lines).2) ∧
      ∀ before entry after, entries = before ++ entry :: after →
        let below := Entry.linesOf after ++ (context.extent lines).2
        context.field style (context.scope lines) (entry.lines ++ below) =
          (Field.ofEntry context.typeMarkup context.describe style entry, below) := by
  have starts : ∀ line ∈ (Block.skipBlanks lines).head?, line ≠ [] :=
    fun _ member => Block.ne_nil_of_head?_skipBlanks member
  have kept : ∀ line ∈ Block.skipBlanks lines, line.Solid := fun line member =>
    solid line (Block.skipBlanks_subset lines member)
  obtain ⟨parts, groups, calls⟩ :=
    Entry.readFrom_groups (context.headerBound style) kept starts whole
  obtain ⟨covered, left⟩ := Prod.ext_iff.mp parts
  have behind : (Entry.readFrom (context.scope lines) (context.headerBound style)
      (Block.skipBlanks lines)).2 = (context.extent lines).2 := left
  rw [behind] at groups calls
  refine ⟨_, covered, groups, Prod.ext rfl left, ?_⟩
  intro before entry after same below
  rw [field, calls before entry after same]
  rfl

def sampleBody : Block :=
  ["", "    x (int): One.", "          more", "", "      less", "    y", "", "  out: of it"]

theorem fields_sampleBody :
    (∀ line ∈ sampleBody, line.Solid) ∧
      (∀ line ∈ ((Parser.google.sectionContext id).extent sampleBody).1,
        Wrapped.isStart line = false) ∧
      ∃ entries : List Entry,
        Entry.linesOf entries = sampleBody.tail.take 6 ∧
          Entry.Groups entries ["  out: of it"] := by
  have solid : ∀ line ∈ sampleBody, line.Solid := by
    have trimmed : sampleBody = sampleBody.map Text.trimEnd := by decide +kernel
    rw [trimmed]
    intro line member
    obtain ⟨raw, -, rfl⟩ := List.mem_map.mp member
    exact Text.solid_trimEnd raw
  have whole : ∀ line ∈ ((Parser.google.sectionContext id).extent sampleBody).1,
      Wrapped.isStart line = false := by decide +kernel
  obtain ⟨entries, covered, groups, -, -⟩ :=
    (Parser.google.sectionContext id).fields_groups named solid whole
  have body : (Parser.google.sectionContext id).extent sampleBody =
      (sampleBody.tail.take 6, [("  out: of it" : Text)]) := by decide +kernel
  rw [body] at covered groups
  exact ⟨solid, whole, entries, covered, groups⟩

end SectionContext

end DocMarkup
