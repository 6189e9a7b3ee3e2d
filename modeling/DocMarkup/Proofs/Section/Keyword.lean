import DocMarkup.Proofs.Parser.Opening
import DocMarkup.Proofs.Section.Registration
import DocMarkup.Proofs.Text.Trim

namespace DocMarkup

/-- All characters may stand in a header, in front of its colon. -/
def Text.isHeading (words : Text) : Bool := words.all fun c => isBlank c || isWord c

theorem Text.headerWords?_append_colon (spelling : Text) :
    headerWords? (spelling ++ [':']) =
      if spelling.lowerCase ≠ [] ∧ spelling.lowerCase.isHeading = true then
        some spelling.lowerCase
      else none := by
  rw [headerWords?, lowerCase_append_colon, List.dropLast_concat]
  simp [isHeading]

namespace Registry

variable {registry : Registry}

/-- A line with a stored key before its colon is a header of the key's strategy, if the key can stand
in a header. Otherwise it is no header. -/
theorem headerAt?_append_colon {spelling : Text} {rest : Block} {strategy : Strategy}
    (content : spelling ≠ []) (flush : Text.indent spelling.lowerCase = 0)
    (known : registry.entries.lookup spelling.lowerCase = some strategy)
    (below : 0 < Block.leadingIndent rest) :
    registry.headerAt? ((spelling ++ [':']) :: rest) =
      if spelling.lowerCase.isHeading then some strategy else none := by
  have nonempty : spelling.lowerCase ≠ [] :=
    fun empty => content (Text.lowerCase_eq_nil_iff.mp empty)
  have words := Text.headerWords?_append_colon spelling
  unfold headerAt?
  by_cases heading : spelling.lowerCase.isHeading = true
  · rw [if_pos ⟨nonempty, heading⟩] at words
    have found : registry.get? spelling.lowerCase = some strategy := by
      rw [get?, Text.lowerCase_lowerCase, known]
    have margin : Text.indent (spelling ++ [':']) = 0 :=
      (Text.indent_of_headerWords? words).mp flush
    simp only [words, Option.bind_some, found, margin, below, heading, ↓reduceIte]
  · rw [if_neg fun both => heading both.2] at words
    simp only [words, Option.bind_none, heading, Bool.false_eq_true, ↓reduceIte]

theorem headerAt?_of_no_words {line : Text} (plain : line.headerWords? = none) (rest : Block) :
    registry.headerAt? (line :: rest) = none := by
  rw [headerAt?, plain, Option.bind_none]

/-- A keyword with a hyphen is accepted, but the line that spells it is no header. -/
theorem not_forall_registered_opens :
    ¬ ∀ (registry next : Registry) (call : SectionSpec) (keyword spelling : Text) (rest : Block),
      registry ∈ [empty, google, extended] → call.register registry = (.ok (), next) →
      keyword ∈ call.keywords → spelling.lowerCase = keyOf keyword →
      0 < Block.leadingIndent rest →
      next.headerAt? ((spelling ++ [':']) :: rest) = some call.strategy := by
  intro opens
  have free : Free google ["Side-Effects"] :=
    ⟨by decide +kernel, by decide +kernel, by decide +kernel⟩
  obtain ⟨next, accepted⟩ := register_of_free free (.fields "Side Effects")
  have plain : Text.headerWords? "Side-Effects:" = none := by decide +kernel
  have opened := opens google next (.fields ["Side-Effects"] "Side Effects") "Side-Effects"
    "Side-Effects" ["    x (int):", "        The x."] (by simp) accepted List.mem_cons_self
    (by decide +kernel) (by decide +kernel)
  rw [show ("Side-Effects" : Text) ++ [':'] = "Side-Effects:" from rfl,
    headerAt?_of_no_words plain] at opened
  contradiction

end Registry

namespace Parser

variable (parser : Parser)

/-- A keyword that a call has accepted opens a section of the call's strategy in any case and at any
later time, if its key holds nothing but words and blanks. Otherwise its line is no header. -/
theorem parseLines_registered {registry next : Registry} {call : SectionSpec}
    (accepted : call.register registry = (.ok (), next)) {later : List SectionSpec}
    (reached : parser.registry = next.afterCalls later) {keyword : Text}
    (named : keyword ∈ call.keywords) {spelling : Text}
    (spelled : spelling.lowerCase = Registry.keyOf keyword) {rest : Block}
    (below : 0 < Block.leadingIndent (rest.map Text.trimEnd)) :
    let header := spelling ++ [':']
    parser.registry.headerAt? ((header :: rest).map Text.trimEnd) =
        (if (Registry.keyOf keyword).isHeading then some call.strategy else none) ∧
      ((Registry.keyOf keyword).isHeading = true →
        parser.parseLines (header :: rest) =
          parser.runAs parser.parseLines call.strategy header.headerTitle
            (rest.map Text.trimEnd)) := by
  intro header
  have trimmed : header.trimEnd = header := Text.trimEnd_append_of_content (by decide) spelling
  have free := (Registry.free_of_register accepted).1
  have content : spelling ≠ [] := by
    rintro rfl
    exact free.content keyword named (Registry.keyOf_eq_nil_iff.mp spelled.symm)
  have stored : next.entries.lookup (Registry.keyOf keyword) = some call.strategy := by
    rw [Registry.lookup_of_register accepted, if_pos (List.mem_map_of_mem named)]
  have known : parser.registry.entries.lookup spelling.lowerCase = some call.strategy := by
    rw [spelled, reached]
    exact Registry.lookup_afterCalls stored later
  have flush : Text.indent spelling.lowerCase = 0 := by
    rw [spelled]
    exact Registry.indent_keyOf keyword
  have opens : parser.registry.headerAt? ((header :: rest).map Text.trimEnd) =
      if (Registry.keyOf keyword).isHeading then some call.strategy else none := by
    rw [List.map_cons, trimmed, ← spelled]
    exact Registry.headerAt?_append_colon content flush known below
  refine ⟨opens, fun heading => ?_⟩
  rw [if_pos heading] at opens
  rw [parser.parseLines_header opens, trimmed]

def sampleCall : SectionSpec := .fields ["Side Effects ", "flags"] "Effects"

theorem parseLines_sampleKeyword :
    ∃ next, sampleCall.register Registry.google = (.ok (), next) ∧
      ("Side Effects " : Text) ∈ sampleCall.keywords ∧
      Text.lowerCase "SIDE effects" = Registry.keyOf "Side Effects " ∧
      Text.isHeading (Registry.keyOf "Side Effects ") = true ∧
      0 < Block.leadingIndent ((["", "  x: The x. "] : Block).map Text.trimEnd) ∧
      let parser : Parser := ⟨next.afterCalls [.rubric ["Flags"]], google.typeMarkup, 3⟩
      parser.parseLines ["SIDE effects:", "", "  x: The x. "] =
        parser.runAs parser.parseLines (.fields "Effects") (Text.headerTitle "SIDE effects:")
          ["", "  x: The x."] := by
  have free : Registry.google.Free sampleCall.keywords :=
    ⟨by decide +kernel, by decide +kernel, by decide +kernel⟩
  obtain ⟨next, accepted⟩ := Registry.register_of_free free sampleCall.strategy
  have named : ("Side Effects " : Text) ∈ sampleCall.keywords := List.mem_cons_self
  have spelled : Text.lowerCase "SIDE effects" = Registry.keyOf "Side Effects " := by
    decide +kernel
  have heading : Text.isHeading (Registry.keyOf "Side Effects ") = true := by decide +kernel
  have below : 0 < Block.leadingIndent ((["", "  x: The x. "] : Block).map Text.trimEnd) := by
    decide +kernel
  refine ⟨next, accepted, named, spelled, heading, below, ?_⟩
  have lines : (["", "  x: The x. "] : Block).map Text.trimEnd = ["", "  x: The x."] := by
    decide +kernel
  have written := (parseLines_registered ⟨next.afterCalls [.rubric ["Flags"]], google.typeMarkup, 3⟩
    accepted rfl named spelled below).2 heading
  rwa [lines] at written

end Parser

end DocMarkup
