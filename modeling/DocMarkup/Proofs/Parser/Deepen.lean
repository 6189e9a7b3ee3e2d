import DocMarkup.Proofs.Parser.Segments
import DocMarkup.Proofs.Section.Deepen

namespace DocMarkup

theorem Registry.headerAt?_of_deeper {registry : Registry} {line : Text} {rest rest' : Block}
    {strategy : Strategy} (h : registry.headerAt? (line :: rest) = some strategy)
    (deeper : Block.leadingIndent rest ≤ Block.leadingIndent rest') :
    registry.headerAt? (line :: rest') = some strategy := by
  simp only [headerAt?] at h ⊢
  split at h
  · rw [Option.ite_none_right_eq_some] at h ⊢
    exact ⟨Nat.lt_of_lt_of_le h.1 deeper, h.2⟩
  · contradiction

theorem Block.map_trimEnd_deepen (n : Nat) (lines : Block) :
    (lines.deepen n).map Text.trimEnd = deepen n (lines.map Text.trimEnd) := by
  rw [deepen, deepen, List.map_map, List.map_map]
  exact List.map_congr_left fun line _ => Text.trimEnd_deepen n line

namespace Parser

variable (parser : Parser)

theorem run_deepen (describe : Block → Block) {line : Text} {body : Block} {strategy : Strategy}
    (header : parser.registry.headerAt? (line :: body) = some strategy) (isBody : body.IsBody)
    (n : Nat) :
    parser.run describe (line :: body.deepen n) = parser.run describe (line :: body) := by
  have deeper : body.leadingIndent ≤ Block.leadingIndent (body.deepen n) := by
    rw [isBody.leadingIndent_deepen n]
    exact Nat.le_add_left _ _
  have moved := Registry.headerAt?_of_deeper header deeper
  rw [parser.run_section describe header isBody, parser.run_section describe moved (isBody.deepen n),
    SectionContext.write_deepen _ isBody]

/-- A section whose lines are indented at least as deep as its first content is written alike when
all lines with content are indented deeper by `n` spaces. -/
theorem parseLines_deepen {header : Text} {body : Block}
    (opens : (parser.registry.headerAt? ((header :: body).map Text.trimEnd)).isSome = true)
    (within : ∀ line ∈ body.map Text.trimEnd, line ≠ [] →
      Block.leadingIndent (body.map Text.trimEnd) ≤ line.indent) (n : Nat) :
    parser.parseLines (header :: body.deepen n) = parser.parseLines (header :: body) := by
  obtain ⟨strategy, found⟩ := Option.isSome_iff_exists.mp opens
  rw [List.map_cons] at found
  have isBody : Block.IsBody (body.map Text.trimEnd) := by
    refine ⟨(Registry.indent_of_headerAt? found).2, fun line member => ?_, within⟩
    obtain ⟨raw, -, rfl⟩ := List.mem_map.mp member
    exact Text.solid_trimEnd raw
  rw [parseLines_eq_run, parseLines_eq_run, List.map_cons, List.map_cons, Block.map_trimEnd_deepen,
    parser.run_deepen _ found isBody]

def sampleBody : Block :=
  ["  x (list of", "      int):", "    The x.", "", "    Note:", "      Mind.", "  y: The y. "]

theorem parseLines_sampleBody :
    (google.registry.headerAt? ((("Args:" : Text) :: sampleBody).map Text.trimEnd)).isSome = true ∧
      (∀ line ∈ sampleBody.map Text.trimEnd, line ≠ [] →
        Block.leadingIndent (sampleBody.map Text.trimEnd) ≤ line.indent) ∧
      google.parseLines ["Args:", "    x (list of", "        int):", "      The x.", "",
          "      Note:", "        Mind.", "    y: The y. "] =
        google.parseLines ("Args:" :: sampleBody) := by
  have opens : (google.registry.headerAt? ((("Args:" : Text) :: sampleBody).map Text.trimEnd)).isSome =
      true := by decide +kernel
  have within : ∀ line ∈ sampleBody.map Text.trimEnd, line ≠ [] →
      Block.leadingIndent (sampleBody.map Text.trimEnd) ≤ line.indent := by decide +kernel
  exact ⟨opens, within, google.parseLines_deepen opens within 2⟩

end Parser

end DocMarkup
