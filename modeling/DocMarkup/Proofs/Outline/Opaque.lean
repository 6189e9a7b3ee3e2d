import DocMarkup.Proofs.Outline.Forest
import DocMarkup.Proofs.Outline.Mark
import DocMarkup.Proofs.Outline.Reading

namespace DocMarkup

namespace Statement

theorem startsFrom_append (number : Nat) (state : SourceState) (lines more : List Text) :
    startsFrom number state (lines ++ more) = startsFrom number state lines ++
      startsFrom (number + lines.length) (lines.foldl SourceState.next state) more := by
  induction lines generalizing number state with
  | nil => rfl
  | cons line lines ih =>
    simp only [List.cons_append, startsFrom, List.foldl_cons, List.length_cons]
    rw [ih, Nat.add_assoc, Nat.add_comm 1]
    split <;> rfl

section Mark

variable {c : Char} (mark : isMark c = true)

include mark

theorem hasCode_append_mark (line behind behind' : Text) :
    hasCode (line ++ c :: behind) = hasCode (line ++ c :: behind') := by
  have content := isBlank_of_isMark mark
  rw [hasCode, hasCode, Text.trimStart_append_cons content, Text.trimStart_append_cons content]
  cases line.trimStart <;> rfl

theorem heading_ofLine_append_mark (number : Nat) (line behind behind' : Text) :
    (ofLine number (line ++ c :: behind)).heading =
      (ofLine number (line ++ c :: behind')).heading := by
  have content := isBlank_of_isMark mark
  have margin (behind : Text) : Text.margin (line ++ c :: behind) = line.margin :=
    Text.takeWhile_append_cons content line behind
  simp only [heading, ofLine, margin, Text.trimStart_append_cons content,
    StatementKind.ofText_append_mark mark]

theorem map_heading_starts_congr {earlier line : Text} (ends : earlier.EndsLine)
    (inside : '\n' ∉ line) {behind behind' : Text}
    (same : ∀ number,
      let state := earlier.lines.foldl SourceState.next {}
      startsFrom number (state.next (line ++ c :: (Text.cutLine behind).1))
          (Text.lines (Text.cutLine behind).2) =
        startsFrom number (state.next (line ++ c :: (Text.cutLine behind').1))
          (Text.lines (Text.cutLine behind').2)) :
    (starts (earlier ++ line ++ c :: behind)).map heading =
      (starts (earlier ++ line ++ c :: behind')).map heading := by
  have notFeed : c ≠ '\n' := by
    rintro rfl
    cases mark
  have notReturn : c ≠ '\r' := by
    rintro rfl
    cases mark
  have lines (behind : Text) : Text.lines (earlier ++ line ++ c :: behind) =
      earlier.lines ++
        (line ++ c :: (Text.cutLine behind).1) :: Text.lines (Text.cutLine behind).2 := by
    have cut : Text.cutLine (c :: behind) =
        (c :: (Text.cutLine behind).1, (Text.cutLine behind).2) :=
      Text.cutLine_cons notFeed fun same => absurd same notReturn
    rw [List.append_assoc, Text.lines_append ends,
      Text.lines_eq_cutLine (List.append_ne_nil_of_right_ne_nil line (List.cons_ne_nil c behind)),
      Text.cutLine_append_fst inside notFeed, Text.cutLine_append_snd inside, cut]
  rw [starts, starts, lines, lines, startsFrom_append, startsFrom_append, List.map_append,
    List.map_append]
  congr 1
  simp only [startsFrom, same,
    hasCode_append_mark mark line (Text.cutLine behind).1 (Text.cutLine behind').1]
  split
  · rw [List.map_cons, List.map_cons, heading_ofLine_append_mark mark]
  · rfl

end Mark

def IsPlain (quote : Char) (text : Text) : Prop := '\\' ∉ text ∧ quote ∉ text

instance (quote : Char) (text : Text) : Decidable (IsPlain quote text) :=
  inferInstanceAs (Decidable ('\\' ∉ text ∧ quote ∉ text))

def within (depth : Nat) (quote : Char) : SourceState := ⟨depth, some ⟨quote, true⟩, false⟩

theorem endLine_append_within (depth : Nat) (quote : Char) (before line : Text) :
    (SourceState.scan 0 depth (some ⟨quote, true⟩) line).endLine (before ++ line) =
      (within depth quote).next line := by
  cases line with
  | nil => rfl
  | cons c line =>
    have last : (before ++ c :: line).getLast? = (c :: line).getLast? := by
      rw [List.getLast?_append, List.getLast?_cons]
      rfl
    rw [SourceState.endLine, last]
    rfl

variable {depth : Nat} {quote : Char}

theorem isPlain_cons {c : Char} {text : Text} (plain : IsPlain quote (c :: text)) :
    (c ≠ '\\' ∧ c ≠ quote) ∧ IsPlain quote text :=
  ⟨⟨Ne.symm (List.ne_of_not_mem_cons plain.1), Ne.symm (List.ne_of_not_mem_cons plain.2)⟩,
    List.not_mem_of_not_mem_cons plain.1, List.not_mem_of_not_mem_cons plain.2⟩

theorem next_within_cons {c : Char} (escape : c ≠ '\\') (inner : c ≠ quote) (line : Text) :
    (within depth quote).next (c :: line) = (within depth quote).next line := by
  have read : SourceState.scan 0 depth (some ⟨quote, true⟩) (c :: line) =
      SourceState.scan 0 depth (some ⟨quote, true⟩) line := by
    simp [SourceState.scan, escape, inner]
  have whole := endLine_append_within depth quote [c] line
  rw [← read] at whole
  exact whole

def startsBehind (number depth : Nat) (quote : Char) (rest : Text) : List Statement :=
  startsFrom number ((within depth quote).next (Text.cutLine rest).1)
    (Text.lines (Text.cutLine rest).2)

theorem startsFrom_within (number : Nat) (rest : Text) :
    startsFrom number (within depth quote) rest.lines =
      startsBehind (number + 1) depth quote rest := by
  by_cases empty : rest = []
  · subst empty
    rfl
  · have inLiteral : (within depth quote).atStart = false := by
      simp [SourceState.atStart, within]
    rw [Text.lines_eq_cutLine empty, startsFrom, startsBehind, inLiteral]
    rfl

theorem startsBehind_cons (number : Nat) {c : Char} (escape : c ≠ '\\') (inner : c ≠ quote)
    (feed : c ≠ '\n') (rest : Text) :
    startsBehind number depth quote (c :: rest) = startsBehind number depth quote rest := by
  by_cases returns : c = '\r' ∧ rest.head? = some '\n'
  · obtain ⟨rfl, first⟩ := returns
    obtain ⟨behind, rfl⟩ := List.head?_eq_some_iff.mp first
    rfl
  · rw [startsBehind, Text.cutLine_cons feed fun same first => returns ⟨same, first⟩,
      next_within_cons escape inner, startsBehind]

theorem startsBehind_append (number : Nat) {content : Text} (plain : IsPlain quote content)
    (rest : Text) :
    startsBehind number depth quote (content ++ rest) =
      startsBehind (number + content.count '\n') depth quote rest := by
  induction content generalizing number with
  | nil => rfl
  | cons c content ih =>
    obtain ⟨⟨escape, inner⟩, others⟩ := isPlain_cons plain
    by_cases feed : c = '\n'
    · subst feed
      rw [List.count_cons_self, ← Nat.add_assoc, Nat.add_right_comm, ← ih (number + 1) others,
        ← startsFrom_within]
      rfl
    · rw [List.count_cons_of_ne feed, ← ih number others]
      exact startsBehind_cons number escape inner feed (content ++ rest)

end Statement

/-- A comment begins behind `before`. -/
def OpensComment (before : Text) : Prop := ∃ depth, ComesTo before ['#'] ⟨0, depth, none⟩

/-- Three quotes open a literal behind `before`. -/
def OpensLiteral (before : Text) (quote : Char) : Prop :=
  isQuote quote = true ∧ ∃ depth, ComesTo before [quote, quote, quote] ⟨0, depth, none⟩

theorem looksLike_hash (text : Text) : ScanPoint.LooksLike ['#'] ('#' :: text) where
  head? := rfl
  isTripled := by
    intro c quote
    have other : c ≠ '#' := by
      rintro rfl
      cases quote
    simp [SourceState.isTripled, Ne.symm other]

theorem looksLike_quotes (quote : Char) (text : Text) :
    ScanPoint.LooksLike [quote, quote, quote] (quote :: quote :: quote :: text) :=
  ⟨rfl, fun _ => rfl⟩

theorem next_comment {state : SourceState} {line : Text} {depth : Nat} {behind : Text}
    (comes : (ScanPoint.ofState state).through? ('#' :: behind) line = some ⟨0, depth, none⟩) :
    state.next (line ++ '#' :: behind) = ⟨depth, none, false⟩ := by
  have read := ScanPoint.scan_append (List.cons_ne_nil _ _) comes
  change SourceState.scan 0 state.depth state.literal _ = SourceState.scan 0 depth none _ at read
  rw [SourceState.next, read]
  rfl

theorem next_literal {state : SourceState} {line : Text} {depth : Nat} {quote : Char}
    (quotes : isQuote quote = true) {behind : Text}
    (comes : (ScanPoint.ofState state).through? (quote :: quote :: quote :: behind) line =
      some ⟨0, depth, none⟩) :
    state.next (line ++ quote :: quote :: quote :: behind) =
      (Statement.within depth quote).next behind := by
  have read := ScanPoint.scan_append (List.cons_ne_nil _ _) comes
  change SourceState.scan 0 state.depth state.literal _ = SourceState.scan 0 depth none _ at read
  have noHash : quote ≠ '#' := by
    rintro rfl
    cases quotes
  have opened : SourceState.scan 0 depth none (quote :: quote :: quote :: behind) =
      SourceState.scan 0 depth (some ⟨quote, true⟩) behind := by
    simp [SourceState.scan, SourceState.isTripled, noHash, quotes]
  have whole := Statement.endLine_append_within depth quote
    (line ++ [quote, quote, quote]) behind
  rw [List.append_assoc] at whole
  rw [SourceState.next, read, opened]
  exact whole

theorem map_heading_starts_comment {before : Text} (opens : OpensComment before)
    {text text' : Text} (inside : '\n' ∉ text) (inside' : '\n' ∉ text') (rest : Text) :
    (Statement.starts (before ++ '#' :: text ++ rest)).map Statement.heading =
      (Statement.starts (before ++ '#' :: text' ++ rest)).map Statement.heading := by
  obtain ⟨depth, comes⟩ := opens
  obtain ⟨earlier, line, rfl, ends, single, goes⟩ := comes.exists_line
  rw [List.append_assoc _ ('#' :: text), List.append_assoc _ ('#' :: text'), List.cons_append,
    List.cons_append]
  refine Statement.map_heading_starts_congr rfl ends single ?_
  intro number state
  rw [next_comment (goes _ (looksLike_hash _)), next_comment (goes _ (looksLike_hash _)),
    Text.cutLine_append_snd inside, Text.cutLine_append_snd inside']

theorem map_heading_starts_literal {before : Text} {quote : Char}
    (opens : OpensLiteral before quote) {content content' : Text}
    (plain : Statement.IsPlain quote content) (plain' : Statement.IsPlain quote content')
    (breaks : content.count '\n' = content'.count '\n') (rest : Text) :
    (Statement.starts (before ++ [quote, quote, quote] ++ content ++ rest)).map Statement.heading =
      (Statement.starts (before ++ [quote, quote, quote] ++ content' ++ rest)).map
        Statement.heading := by
  obtain ⟨quotes, depth, comes⟩ := opens
  obtain ⟨earlier, line, rfl, ends, single, goes⟩ := comes.exists_line
  have notFeed : quote ≠ '\n' := by
    rintro rfl
    cases quotes
  have notReturn : quote ≠ '\r' := by
    rintro rfl
    cases quotes
  have mark : isMark quote = true := by
    rw [isMark, quotes, Bool.true_or]
  have cut (text : Text) : Text.cutLine (quote :: quote :: text) =
      (quote :: quote :: (Text.cutLine text).1, (Text.cutLine text).2) := by
    rw [Text.cutLine_cons notFeed fun same => absurd same notReturn,
      Text.cutLine_cons notFeed fun same => absurd same notReturn]
  simp only [List.append_assoc, List.cons_append, List.nil_append]
  simp only [← List.append_assoc earlier line]
  refine Statement.map_heading_starts_congr mark ends single ?_
  intro number state
  rw [cut, cut, next_literal quotes (goes _ (looksLike_quotes quote _)),
    next_literal quotes (goes _ (looksLike_quotes quote _))]
  change Statement.startsBehind number depth quote (content ++ rest) =
    Statement.startsBehind number depth quote (content' ++ rest)
  rw [Statement.startsBehind_append number plain, Statement.startsBehind_append number plain',
    breaks]

namespace Outline

/-- Neither the content of a literal in three quotes nor the text of a comment shows in the outline.
A content counts by its line breaks only, and both may go on in `rest`. -/
theorem ofSource_ignores_content (before rest : Text) :
    (∀ quote content content', OpensLiteral before quote → Statement.IsPlain quote content →
        Statement.IsPlain quote content' → content.count '\n' = content'.count '\n' →
        ofSource (before ++ [quote, quote, quote] ++ content ++ rest) =
          ofSource (before ++ [quote, quote, quote] ++ content' ++ rest)) ∧
      ∀ text text', OpensComment before → '\n' ∉ text → '\n' ∉ text' →
        ofSource (before ++ '#' :: text ++ rest) = ofSource (before ++ '#' :: text' ++ rest) := by
  refine ⟨?_, ?_⟩
  · intro quote content content' opens plain plain' breaks
    exact ofStatements_congr (map_heading_starts_literal opens plain plain' breaks rest)
  · intro text text' opens inside inside'
    exact ofStatements_congr (map_heading_starts_comment opens inside inside' rest)

def sampleOpening : Text := "class Shape:\n    doc = "

theorem ofSource_sampleOpening :
    OpensLiteral sampleOpening '"' ∧ OpensComment sampleOpening ∧
      ofSource (sampleOpening ++ ['"', '"', '"'] ++ "\nclass Hidden:\n    x = 1" ++ "\"\"\"\n") =
        ofSource (sampleOpening ++ ['"', '"', '"'] ++ "A (\n\nshape." ++ "\"\"\"\n") ∧
      ofSource (sampleOpening ++ '#' :: "= x = (" ++ "\nclass Square:\n") =
        ofSource (sampleOpening ++ '#' :: "" ++ "\nclass Square:\n") := by
  have comes (rest : Text) (goes : (ScanPoint.ofState
      (Text.lines "class Shape:\n" |>.foldl SourceState.next {})).through? rest "    doc = " =
        some ⟨0, 0, none⟩) : ComesTo sampleOpening rest ⟨0, 0, none⟩ :=
    ⟨"class Shape:\n", "    doc = ", rfl, Or.inr rfl, by decide, goes⟩
  have literal : OpensLiteral sampleOpening '"' := ⟨rfl, 0, comes _ rfl⟩
  have comment : OpensComment sampleOpening := ⟨0, comes _ rfl⟩
  refine ⟨literal, comment, ?_, ?_⟩
  · exact (ofSource_ignores_content sampleOpening _).1 '"' _ _ literal (by decide) (by decide)
      (by decide)
  · exact (ofSource_ignores_content sampleOpening _).2 _ _ comment (by decide) (by decide)

end Outline

end DocMarkup
