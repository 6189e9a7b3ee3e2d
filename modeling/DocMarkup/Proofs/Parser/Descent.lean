import Mathlib.Data.List.Chain
import DocMarkup.Proofs.Parser.Nesting

namespace DocMarkup

namespace SectionContext

theorem length_field_lt {context : SectionContext} {style : EntryStyle} {scope : Scope}
    {lines : Block} (inside : scope.endsAt lines = false) :
    (context.field style scope lines).2.length < lines.length := by
  have content : lines ≠ [] := by
    rintro rfl
    contradiction
  have parts := Entry.length_take_le scope (context.headerBound style) content
  change (Entry.take scope (context.headerBound style) lines).2.length < lines.length
  omega

end SectionContext

namespace Parser

/-- `inner` is one of the docstrings that are written out on the way when `outer` is. -/
def Contains (parser : Parser) (outer inner : Block) : Prop :=
  inner ∈ parser.docstringsIn parser.parseLines (outer.map Text.trimEnd)

theorem Contains.length_lt {parser : Parser} {outer inner : Block}
    (contains : parser.Contains outer inner) : inner.length < outer.length := by
  have shorter := length_docstringsIn_lt contains
  rwa [List.length_map] at shorter

theorem length_chain_le {parser : Parser} {outer : Block} {chain : List Block}
    (nested : List.IsChain parser.Contains (outer :: chain)) : chain.length ≤ outer.length := by
  induction chain generalizing outer with
  | nil => exact Nat.zero_le _
  | cons inner chain ih =>
    obtain ⟨contains, nested⟩ := List.isChain_cons_cons.mp nested
    have shorter := contains.length_lt
    have rest := ih nested
    rw [List.length_cons]
    omega

/-- Every turn of a loop uses up lines, and what is nested is shorter than what it is nested in. -/
structure Descends (parser : Parser) (lines : Block) : Prop where
  step_shrinks : ∀ describe started rest, rest ≠ [] →
    (parser.step describe started rest).2.length < rest.length
  field_shrinks : ∀ describe style scope rest, scope.endsAt rest = false →
    ((parser.sectionContext describe).field style scope rest).2.length < rest.length
  inner_shorter : ∀ inner, parser.Contains lines inner → inner.length < lines.length
  inner_only : ∀ describe, (∀ inner, parser.Contains lines inner →
      describe inner = parser.parseLines inner) →
    parser.run describe (lines.map Text.trimEnd) = parser.parseLines lines
  depth_le : ∀ chain, List.IsChain parser.Contains (lines :: chain) →
    chain.length ≤ lines.length
  depth_irrelevant : ∀ depth, lines.length + 1 ≤ depth →
    parser.parseNested depth lines = parser.parseNested (lines.length + 1) lines

theorem descends (parser : Parser) (lines : Block) : parser.Descends lines where
  step_shrinks describe started rest content := by
    obtain ⟨line, rest, rfl⟩ := List.exists_cons_of_ne_nil content
    exact parser.length_step_lt describe started line rest
  field_shrinks describe style scope rest inside := SectionContext.length_field_lt inside
  inner_shorter inner contains := contains.length_lt
  inner_only describe agree := by
    rw [parseLines_eq_run]
    exact (run_congr fun inner contains => (agree inner contains).symm).symm
  depth_le chain nested := length_chain_le nested
  depth_irrelevant depth deep := parseNested_congr deep (Nat.lt_succ_self _)

end Parser

end DocMarkup
