import DocMarkup.Proofs.Parser.Nesting
import DocMarkup.Proofs.Section.Header

namespace DocMarkup

namespace Parser

variable (parser : Parser)

def runAs (describe : Block → Block) (strategy : Strategy) (title : Text) (lines : Block) : Block :=
  let written := (parser.sectionContext describe).write strategy title lines
  written.1 ++ parser.runFrom describe (!written.1.isEmpty) written.2

theorem content_of_headerAt? {registry : Registry} {line : Text} {rest : Block}
    {strategy : Strategy} (header : registry.headerAt? (line :: rest) = some strategy) :
    line ≠ [] := by
  rintro rfl
  rw [Registry.headerAt?_blank] at header
  contradiction

theorem run_header (describe : Block → Block) {line : Text} {rest : Block} {strategy : Strategy}
    (header : parser.registry.headerAt? (line :: rest) = some strategy) :
    parser.run describe (line :: rest) =
      parser.runAs describe strategy line.headerTitle rest := by
  have content := content_of_headerAt? header
  have blanks : Block.leadingBlanks (line :: rest) = [] := by simp [Block.leadingBlanks, content]
  have same : Block.skipBlanks (line :: rest) = line :: rest := by
    simp [Block.skipBlanks, content]
  have step : parser.step describe false (line :: rest) =
      (parser.sectionContext describe).write strategy line.headerTitle rest := by
    simp only [step, header]
  rw [run, blanks, same, runFrom]
  simp [step, runAs]

theorem parseLines_header {line : Text} {rest : Block} {strategy : Strategy}
    (header : parser.registry.headerAt? ((line :: rest).map Text.trimEnd) = some strategy) :
    parser.parseLines (line :: rest) =
      parser.runAs parser.parseLines strategy line.trimEnd.headerTitle
        (rest.map Text.trimEnd) := by
  rw [parseLines_eq_run, List.map_cons]
  exact parser.run_header parser.parseLines header

end Parser

end DocMarkup
