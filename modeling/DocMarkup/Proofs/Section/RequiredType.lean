import DocMarkup.Proofs.Field.AppendedColon
import DocMarkup.Proofs.Parser.BlankLines
import DocMarkup.Proofs.Section.Extent

namespace DocMarkup

namespace Text

theorem splitColon?_unindent (n : Nat) (line : Text) :
    splitColon? (line.unindent n) = splitColon? line := by
  induction n generalizing line with
  | zero => rfl
  | succ n ih =>
    cases line with
    | nil => rfl
    | cons c rest =>
      rw [unindent]
      split
      · rename_i blank
        rw [ih, splitColon?_blank blank]
      · rfl

theorem text_ne_nil_of_splitColon? {line type text : Text} (trimmed : line.trimEnd = line)
    (last : line.getLast? ≠ some ':') (split : line.splitColon? = some (type, text)) :
    text ≠ [] := by
  obtain ⟨front, rest, rfl, -, rfl⟩ := splitColon?_parts split
  intro empty
  rw [List.append_cons] at trimmed last
  have ends := trimEnd_of_append_right (front ++ [':']) trimmed
  rw [trim_eq_nil_iff_trimEnd, ends] at empty
  rw [empty, List.append_nil, List.getLast?_concat] at last
  exact last rfl

theorem getLast?_of_endsWith {line : Text} (ends : line.endsWith ":" = false) :
    line.getLast? ≠ some ':' := by
  rintro last
  obtain ⟨front, rfl⟩ := List.getLast?_eq_some_iff.mp last
  have suffix : (":" : Text) <:+ front ++ [':'] := List.suffix_append front [':']
  rw [endsWith, List.isSuffixOf_iff_suffix.mpr suffix] at ends
  cases ends

end Text

namespace Block

theorem commonIndent_congr {first first' : Text} (filled : first ≠ []) (filled' : first' ≠ [])
    (same : first'.indent = first.indent) (rest : Block) :
    commonIndent (first' :: rest) = commonIndent (first :: rest) := by
  simp [commonIndent, filled, filled', same]

theorem dedent_of_margin {first : Text} (filled : first ≠ []) (margin : first.margin = [])
    (rest : Block) : dedent (first :: rest) = first :: rest := by
  have zero : commonIndent (first :: rest) = 0 := by
    have least : (((first :: rest).filter (· ≠ [])).map Text.indent).min? = some 0 := by
      refine List.min?_eq_some_iff.mpr ⟨?_, fun _ _ => Nat.zero_le _⟩
      exact List.mem_map.mpr ⟨first, by simp [filled], by rw [Text.indent, margin]; rfl⟩
    rw [commonIndent, least]
    rfl
  rw [dedent, zero]
  exact List.map_id _

end Block

theorem Field.ofBody?_of_split {first type text : Text}
    (split : first.splitColon? = some (type, text)) (described : text ≠ [])
    (typeMarkup : TypeMarkup) (describe : Block → Block) (n : Nat) (below : Block) :
    ofBody? typeMarkup describe (first.unindent n :: below) =
      some ⟨[], typeMarkup.render type, describe (text :: below)⟩ := by
  have margin : text.margin = [] := by
    obtain ⟨-, behind, -, -, rfl⟩ := Text.splitColon?_parts split
    exact Text.margin_trim behind
  simp only [ofBody?, Text.splitColon?_unindent, split, List.isEmpty_eq_false_iff.mpr described,
    Bool.false_eq_true, ↓reduceIte, Block.dedent_of_margin described margin]

theorem Scope.takeAll_cons {scope : Scope} {first : Text} (filled : first ≠ [])
    (inside : scope.Contains first) (rest : Block) :
    scope.takeAll (first :: rest) =
      let (taken, left) := cutBefore scope.endsAt rest
      (first :: (taken ++ Block.leadingBlanks left), Block.skipBlanks left) := by
  have skipped : Block.skipBlanks (first :: rest) = first :: rest :=
    List.dropWhile_cons_of_neg (by simpa using filled)
  rw [takeAll, skipped, cutBefore, inside rest]
  rfl

namespace SectionContext

variable (context : SectionContext)

theorem exists_bodyField {first : Text} (filled : first ≠ []) (indented : 0 < first.indent)
    (rest : Block) :
    ∃ below left, ∀ line type text : Text, line ≠ [] → line.Solid → line.indent = first.indent →
      line.splitColon? = some (type, text) → text ≠ [] →
      context.bodyField (context.scope (first :: rest)) (line :: rest) =
        (some ⟨[], context.typeMarkup.render type, context.describe (text :: below)⟩, left) := by
  have scope : context.scope (first :: rest) = ⟨context.registry, some first.indent⟩ := by
    simp [SectionContext.scope, Block.leadingIndent, filled]
  rw [scope]
  generalize cut : cutBefore (Scope.endsAt ⟨context.registry, some first.indent⟩) rest = parts
  obtain ⟨taken, left⟩ := parts
  let common := Block.commonIndent (first :: (taken ++ Block.leadingBlanks left))
  refine ⟨(taken ++ Block.leadingBlanks left).map (Text.unindent common), Block.skipBlanks left, ?_⟩
  intro line type text nonempty solid same split described
  have inside : (⟨context.registry, some first.indent⟩ : Scope).Contains line :=
    Scope.contains_of_indent indented solid fun _ => Nat.le_of_eq same.symm
  rw [bodyField, Scope.takeAll_cons nonempty inside, cut]
  simp only [Block.dedent, List.map_cons, Block.commonIndent_congr filled nonempty same]
  rw [Field.ofBody?_of_split split described]

/-- A section that demands a type and whose first line has one. The demand changes nothing if blank
lines stand in front of this line or a colon ends it. Else the description begins with the same text
and a colon behind it, as long as this colon closes no metadata field. -/
theorem write_returnsLike_of_split (label title : Text) {blanks : Block} {first type text : Text}
    (blank : ∀ line ∈ blanks, line = []) (indented : 0 < first.indent)
    (trimmed : first.trimEnd = first) (split : first.splitColon? = some (type, text))
    (rest : Block) :
    (blanks ≠ [] ∨ first.endsWith ":" = true →
      context.write (.returnsLike label true) title (blanks ++ first :: rest) =
        context.write (.returnsLike label false) title (blanks ++ first :: rest)) ∧
    (first.endsWith ":" = false → ¬ first.LeavesMetadataOpen →
      ∃ below left, ∀ demands : Bool,
        context.write (.returnsLike label demands) title (first :: rest) =
          (FieldList.labelled label [⟨[], context.typeMarkup.render type,
            context.describe ((if demands then text ++ [':'] else text) :: below)⟩], left)) := by
  constructor
  · intro undemanding
    apply write_of_withColon
    by_cases none : blanks = []
    · have colon := undemanding.resolve_left (fun more => more none)
      rw [none, List.nil_append, withColon_of_colon colon]
    · exact withColon_blanks blank none _
  · intro ends closed
    have last := Text.getLast?_of_endsWith ends
    have filled : first ≠ [] := by
      rintro rfl
      exact absurd indented (Nat.lt_irrefl 0)
    have solid : first.Solid := trimmed ▸ Text.solid_trimEnd first
    have described := Text.text_ne_nil_of_splitColon? trimmed last split
    obtain ⟨below, left, written⟩ := context.exists_bodyField filled indented rest
    refine ⟨below, left, fun demands => ?_⟩
    cases demands with
    | false =>
      simp only [write, Bool.false_eq_true, ↓reduceIte,
        written first type text filled solid rfl split described]
      rfl
    | true =>
      have colon : withColon (first :: rest) = (first ++ [':']) :: rest := by
        rw [withColon, ends, List.isEmpty_eq_false_iff.mpr filled]
        rfl
      have same : (first ++ [':']).indent = first.indent :=
        congrArg List.length (Text.margin_append_of_content (solid filled) _)
      have split' := Text.splitColon?_colon trimmed closed last split
      simp only [write, ↓reduceIte, colon, written (first ++ [':']) type (text ++ [':']) (by simp)
        (Text.solid_append_right (by decide)) same split' (by simp)]
      rfl

def sampleType : Text := "    int: Desc."

theorem write_sampleType :
    (∀ line ∈ ([[]] : Block), line = []) ∧ 0 < sampleType.indent ∧
      sampleType.trimEnd = sampleType ∧
      sampleType.splitColon? = some (("int" : Text), ("Desc." : Text)) ∧
      let context := Parser.extended.sectionContext Parser.extended.parseLines
      context.write (.returnsLike "Type" true) "Type" [[], sampleType] =
          context.write (.returnsLike "Type" false) "Type" [[], sampleType] ∧
        ∃ below left, ∀ demands : Bool,
          context.write (.returnsLike "Type" demands) "Type" [sampleType] =
            (FieldList.labelled "Type" [⟨[], context.typeMarkup.render "int",
              context.describe ((if demands then "Desc." ++ [':'] else "Desc.") :: below)⟩], left) := by
  have blank : ∀ line ∈ ([[]] : Block), line = [] := by decide
  have split : sampleType.splitColon? = some (("int" : Text), ("Desc." : Text)) := by
    decide +kernel
  have closed : ¬ sampleType.LeavesMetadataOpen := fun leaves =>
    absurd leaves.isInfix (by decide +kernel)
  have written := write_returnsLike_of_split
    (Parser.extended.sectionContext Parser.extended.parseLines) "Type" "Type" blank (by decide)
    (by decide) split []
  refine ⟨blank, by decide, by decide, split, written.1 (Or.inl (List.cons_ne_nil _ _)), ?_⟩
  exact written.2 (by decide) closed

/-- The demand for a type changes a section that has a type. -/
theorem not_forall_write_required :
    ¬ ∀ (context : SectionContext) (label title first : Text) (rest : Block),
      first.splitColon?.isSome = true → 0 < first.indent → first.trimEnd = first →
      context.write (.returnsLike label true) title (first :: rest) =
        context.write (.returnsLike label false) title (first :: rest) := by
  intro same
  have alike := same (Parser.extended.sectionContext Parser.extended.parseLines) "Type" "Type"
    sampleType [] (by decide +kernel) (by decide) (by decide)
  revert alike
  decide +kernel

end SectionContext

end DocMarkup
