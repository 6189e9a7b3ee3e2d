import DocMarkup.Proofs.Parser.Opening
import DocMarkup.Proofs.Section.Markers

namespace DocMarkup.Parser

variable (parser : Parser)

/-- Descriptions, with the lists, literal blocks and sections in them, stay behind their markers. -/
theorem markedBy_parseLines {header : Text} {body : Block} {strategy : Strategy}
    (opens : parser.registry.headerAt? ((header :: body).map Text.trimEnd) = some strategy)
    (indents : strategy ≠ .rubric)
    (whole : ((parser.sectionContext parser.parseLines).write strategy header.trimEnd.headerTitle
      (body.map Text.trimEnd)).2 = []) :
    Block.MarkedBy (parser.parseLines (header :: body))
      (strategy.markers
        ((parser.sectionContext parser.parseLines).entries strategy (body.map Text.trimEnd))) := by
  have ended : ∀ started, parser.runFrom parser.parseLines started [] = [] := by
    intro started
    rw [runFrom]
  rw [parser.parseLines_header opens, runAs, whole, ended, List.append_nil]
  exact SectionContext.markedBy_write _ indents _ _

def sampleFields : Block :=
  ["  x (list of", "      int):", "    - one", "    - two", "", "    Note:", "      Mind.",
    "  *rest: As in::", "", "      f(x)", "", "    and so on. "]

theorem markedBy_sampleFields :
    google.registry.headerAt? ((("Args:" : Text) :: sampleFields).map Text.trimEnd) =
        some .params ∧
      ((google.sectionContext google.parseLines).write .params "Args"
        (sampleFields.map Text.trimEnd)).2 = [] ∧
      Block.MarkedBy (google.parseLines ("Args:" :: sampleFields))
        [":param x:", ":type x:", ":param \\*rest:"] := by
  have opens : google.registry.headerAt? ((("Args:" : Text) :: sampleFields).map Text.trimEnd) =
      some .params := by decide +kernel
  have whole : ((google.sectionContext google.parseLines).write .params "Args"
      (sampleFields.map Text.trimEnd)).2 = [] := by decide +kernel
  have markers : Strategy.params.markers ((google.sectionContext google.parseLines).entries .params
      (sampleFields.map Text.trimEnd)) = [":param x:", ":type x:", ":param \\*rest:"] := by
    decide +kernel
  have marked := google.markedBy_parseLines opens (by decide) whole
  rw [markers] at marked
  exact ⟨opens, whole, marked⟩

end DocMarkup.Parser
