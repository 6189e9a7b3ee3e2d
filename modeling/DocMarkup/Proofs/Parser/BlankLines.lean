import DocMarkup.Proofs.Parser.Opening
import DocMarkup.Proofs.Text.Deepen
import Mathlib.Data.List.DropRight

namespace DocMarkup

namespace Block

theorem skipBlanks_append {blanks : Block} (blank : ∀ line ∈ blanks, line = []) (rest : Block) :
    skipBlanks (blanks ++ rest) = skipBlanks rest :=
  List.dropWhile_append_of_pos fun line member => decide_eq_true (blank line member)

theorem skipBlanks_skipBlanks (lines : Block) : skipBlanks (skipBlanks lines) = skipBlanks lines :=
  List.dropWhile_idempotent _ _

theorem leadingIndent_skipBlanks (lines : Block) :
    leadingIndent (skipBlanks lines) = leadingIndent lines := by
  induction lines with
  | nil => rfl
  | cons line lines ih =>
    by_cases empty : line = []
    · subst empty
      exact ih
    · simp [skipBlanks, empty]

theorem eq_nil_of_mem_map_trimEnd {blanks : Block} (blank : ∀ line ∈ blanks, line.trim = []) :
    ∀ line ∈ blanks.map Text.trimEnd, line = [] := by
  intro line member
  obtain ⟨raw, inside, rfl⟩ := List.mem_map.mp member
  exact Text.trim_eq_nil_iff_trimEnd.mp (blank raw inside)

end Block

theorem Registry.headerAt?_blanks {registry : Registry} {blanks : Block}
    (blank : ∀ line ∈ blanks, line = []) (header : Text) (rest : Block) :
    registry.headerAt? (header :: (blanks ++ rest)) = registry.headerAt? (header :: rest) := by
  apply headerAt?_congr
  rw [← Block.leadingIndent_skipBlanks, Block.skipBlanks_append blank,
    Block.leadingIndent_skipBlanks]

def Strategy.lenient : Strategy → Strategy
  | returnsLike label _ => returnsLike label false
  | strategy => strategy

namespace SectionContext

variable (context : SectionContext)

theorem withColon_blanks {blanks : Block} (blank : ∀ line ∈ blanks, line = [])
    (nonempty : blanks ≠ []) (rest : Block) : withColon (blanks ++ rest) = blanks ++ rest := by
  obtain ⟨line, more, rfl⟩ := List.exists_cons_of_ne_nil nonempty
  rw [blank line List.mem_cons_self]
  rfl

theorem withColon_of_colon {first : Text} (colon : first.endsWith ":" = true) (rest : Block) :
    withColon (first :: rest) = first :: rest := by
  rw [withColon, colon, Bool.or_true]
  rfl

theorem write_of_withColon {lines : Block} (same : withColon lines = lines) (strategy : Strategy)
    (title : Text) :
    context.write strategy title lines = context.write strategy.lenient title lines := by
  cases strategy with
  | returnsLike label requireType =>
    simp only [Strategy.lenient, write, same, ite_self]
  | _ => rfl

theorem write_lenient_skipBlanks (strategy : Strategy) (title : Text) (lines : Block) :
    context.write strategy.lenient title (Block.skipBlanks lines) =
      context.write strategy.lenient title lines := by
  have scope : context.scope (Block.skipBlanks lines) = context.scope lines := by
    rw [SectionContext.scope, Block.leadingIndent_skipBlanks, SectionContext.scope]
  have fields : ∀ style, context.fields style (Block.skipBlanks lines) =
      context.fields style lines := by
    intro style
    rw [SectionContext.fields, Entry.read, scope, Block.skipBlanks_skipBlanks]
    rfl
  have takeAll : ∀ scope : Scope, scope.takeAll (Block.skipBlanks lines) = scope.takeAll lines := by
    intro scope
    rw [Scope.takeAll, Block.skipBlanks_skipBlanks, Scope.takeAll]
  cases strategy <;>
    simp only [Strategy.lenient, write, fields, SectionContext.body, bodyField, scope, takeAll,
      Bool.false_eq_true, ↓reduceIte]

theorem write_lenient_blanks {blanks : Block} (blank : ∀ line ∈ blanks, line = [])
    (strategy : Strategy) (title : Text) (lines : Block) :
    context.write strategy.lenient title (blanks ++ lines) =
      context.write strategy.lenient title lines := by
  rw [← write_lenient_skipBlanks, Block.skipBlanks_append blank, write_lenient_skipBlanks]

end SectionContext

namespace Parser

variable (parser : Parser)

/-- Blank lines below a header change nothing in a section that demands no type, and in one whose
first line ends in a colon. Any other section that demands a type is written as one that does
not. -/
theorem parseLines_blanks_below_header {header first : Text} {blanks rest : Block}
    {strategy : Strategy}
    (opens : parser.registry.headerAt? ((header :: first :: rest).map Text.trimEnd) =
      some strategy)
    (blank : ∀ line ∈ blanks, line.trim = []) :
    (strategy.lenient = strategy ∨ first.trimEnd.endsWith ":" = true →
      parser.parseLines (header :: (blanks ++ first :: rest)) =
        parser.parseLines (header :: first :: rest)) ∧
      (blanks ≠ [] →
        parser.parseLines (header :: (blanks ++ first :: rest)) =
          parser.runAs parser.parseLines strategy.lenient header.trimEnd.headerTitle
            ((first :: rest).map Text.trimEnd)) := by
  have empty := Block.eq_nil_of_mem_map_trimEnd blank
  have opens' : parser.registry.headerAt?
      ((header :: (blanks ++ first :: rest)).map Text.trimEnd) = some strategy := by
    rw [List.map_cons, List.map_append, Registry.headerAt?_blanks empty]
    exact opens
  have direct := parser.parseLines_header opens
  have spaced := parser.parseLines_header opens'
  -- A blank line in front hides the first line from the demand for a type.
  have behind : blanks ≠ [] →
      parser.parseLines (header :: (blanks ++ first :: rest)) =
        parser.runAs parser.parseLines strategy.lenient header.trimEnd.headerTitle
          ((first :: rest).map Text.trimEnd) := by
    intro nonempty
    have hidden := SectionContext.withColon_blanks empty (mt List.map_eq_nil_iff.mp nonempty)
      ((first :: rest).map Text.trimEnd)
    rw [spaced, List.map_append, runAs, SectionContext.write_of_withColon _ hidden,
      SectionContext.write_lenient_blanks _ empty, runAs]
  refine ⟨fun undemanding => ?_, behind⟩
  by_cases none : blanks = []
  · rw [none, List.nil_append]
  · rw [behind none, direct]
    rcases undemanding with same | colon
    · rw [same]
    · have typed := SectionContext.withColon_of_colon colon (rest.map Text.trimEnd)
      rw [List.map_cons, runAs, runAs, SectionContext.write_of_withColon _ typed strategy]

def extended : Parser := { google with registry := Registry.extended }

theorem parseLines_sampleBlanks :
    extended.registry.headerAt? (["Type:", "    int:", "    Desc."].map Text.trimEnd) =
        some (.returnsLike "Type" true) ∧
      extended.parseLines ["Type:", "  ", "    int:", "    Desc."] =
        extended.parseLines ["Type:", "    int:", "    Desc."] := by
  have opens : extended.registry.headerAt? (["Type:", "    int:", "    Desc."].map Text.trimEnd) =
      some (.returnsLike "Type" true) := by decide +kernel
  have blank : ∀ line ∈ (["  "] : Block), line.trim = [] := by decide +kernel
  have same := extended.parseLines_blanks_below_header opens blank
  exact ⟨opens, same.1 (Or.inr (by decide +kernel))⟩

/-- A blank line below the header keeps the first line from being read as a type. -/
theorem not_forall_blanks_below_header :
    ¬ ∀ (parser : Parser) (header first : Text) (rest : Block) (n : Nat),
      (parser.registry.headerAt? ((header :: first :: rest).map Text.trimEnd)).isSome = true →
      first.trim ≠ [] →
      parser.parseLines (header :: (List.replicate n [] ++ first :: rest)) =
        parser.parseLines (header :: first :: rest) := by
  intro same
  have alike := same extended "Type:" "    int" ["    Desc."] 1 (by decide +kernel)
    (by decide +kernel)
  have differ : extended.parseLines ["Type:", [], "    int", "    Desc."] ≠
      extended.parseLines ["Type:", "    int", "    Desc."] := by decide +kernel
  exact differ alike

end Parser

end DocMarkup
