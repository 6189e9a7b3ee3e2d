import DocMarkup.Field.Basic
import DocMarkup.Proofs.Field.MarkupPattern
import DocMarkup.Proofs.Text.Trim

namespace DocMarkup

/-- The search for a pattern, from each match to the next, comes past `before`, and there is no
match where `after` begins. -/
inductive Pattern.Outside (pattern : Pattern) : Text → Text → Prop
  | here {after : Text} (none : pattern.cut? after = none) : Outside pattern [] after
  | step {c : Char} {before after : Text} (none : pattern.cut? (c :: (before ++ after)) = none)
      (behind : Outside pattern before after) : Outside pattern (c :: before) after
  | past {inner before after : Text}
      (taken : pattern.cut? (inner ++ (before ++ after)) = some (inner, before ++ after))
      (behind : Outside pattern before after) : Outside pattern (inner ++ before) after

namespace Text

/-- The colon between two texts stands outside markup and has no colon beside it. -/
structure SingleColon (before after : Text) : Prop where
  outside : Markup.pattern.Outside before (':' :: after)
  front : before.getLast? ≠ some ':'
  back : after.head? ≠ some ':'

/-- The colon between two texts stands outside markup, has no colon in front, and none behind it but
one with which markup begins. -/
structure HeadColon (before after : Text) : Prop where
  outside : Markup.pattern.Outside before (':' :: after)
  front : before.getLast? ≠ some ':'
  back : after.head? = some ':' → Markup.pattern.cut? after ≠ none

/-- A colon cuts the line in two as `holds` says, and none further in front does. -/
structure FirstColon (holds : Text → Text → Prop) (line before after : Text) : Prop where
  whole : before ++ ':' :: after = line
  here : holds before after
  first : ∀ before' after', before' ++ ':' :: after' = line → holds before' after' →
    before.length ≤ before'.length

end Text

namespace Markup

open Pattern

theorem getLast?_of_mem_interpreted {word : Text} (member : word ∈ interpretedPattern.language) :
    word.getLast? = some backtick := by
  obtain ⟨start, -, _, ⟨content, -, _, tick, rfl⟩, rfl⟩ := member
  rw [mem_language_literal.mp tick, List.getLast?_append, List.getLast?_concat, Option.some_or]

theorem getLast?_of_mem_literal {word : Text} (member : word ∈ literalPattern.language) :
    word.getLast? = some backtick := by
  obtain ⟨start, -, _, ⟨content, -, _, ticks, rfl⟩, rfl⟩ := member
  rw [mem_language_literal.mp ticks, List.getLast?_append, List.getLast?_append]
  rfl

theorem getLast?_of_mem_reference {word : Text} (member : word ∈ referencePattern.language) :
    word.getLast? = some backtick := by
  obtain ⟨role, -, target, inside, rfl⟩ := member
  rw [List.getLast?_append, getLast?_of_mem_interpreted inside, Option.some_or]

theorem mem_language_of_cut {pattern : Pattern} {text inner rest : Text}
    (left : (pattern.rests text).head? = some rest) (whole : inner ++ rest = text) :
    inner ∈ pattern.language := by
  obtain ⟨word, member, same⟩ := mem_rests_iff.mp (List.mem_of_head? left)
  rw [← List.append_cancel_right (same.trans whole.symm)]
  exact member

theorem getLast?_of_span? {text inner rest : Text} (taken : span? text = some (inner, rest))
    (colon : rest.head? = some ':') : inner.getLast? = some backtick := by
  obtain ⟨cut, member, taken⟩ := List.exists_of_findSome?_eq_some taken
  simp only [List.mem_cons, List.not_mem_nil, or_false] at member
  rcases member with rfl | rfl | rfl | rfl
  · have left := reference?_rests text
    rw [taken] at left
    exact getLast?_of_mem_reference (mem_language_of_cut left (reference?_append taken))
  · have left := literal?_rests text
    rw [taken] at left
    exact getLast?_of_mem_literal (mem_language_of_cut left (literal?_append taken))
  · simp only [metadata?] at taken
    split at taken
    · cases taken
    · rename_i behind _
      rw [Option.ite_none_right_eq_some] at taken
      cases taken.2
      have feed := List.head?_dropWhile_not (· != '\n') behind
      rw [colon] at feed
      cases feed
  · have left := interpreted?_rests text
    rw [taken] at left
    exact getLast?_of_mem_interpreted (mem_language_of_cut left (interpreted?_append taken))

theorem head?_pieces (text : Text) :
    (pieces text).head?.any Piece.isColon = true ↔
      text.head? = some ':' ∧ pattern.cut? text = none := by
  rw [← span?_eq]
  cases text with
  | nil => simp [pieces]
  | cons c rest =>
    cases taken : span? (c :: rest) with
    | some cut =>
      rw [pieces_of_some taken]
      simp [Piece.isColon]
    | none =>
      rw [pieces_of_none taken]
      simp [Piece.isColon_plain]

end Markup

theorem Piece.splitFrom_cons_of_passed {afterColon : Bool} {piece : Piece} {pieces : List Piece}
    (passed : (piece.isColon && !afterColon && !(pieces.head?.any isColon)) = false)
    {before after : Text} :
    splitFrom afterColon (piece :: pieces) = some (before, after) ↔
      ∃ behind, piece.text ++ behind = before ∧
        splitFrom piece.isColon pieces = some (behind, after) := by
  rw [splitFrom, passed]
  simp [and_comm]

namespace Pattern

variable {pattern : Pattern} {before after : Text}

theorem outside_cons {c : Char} (none : pattern.cut? (c :: (before ++ after)) = none) :
    pattern.Outside (c :: before) after ↔ pattern.Outside before after := by
  refine ⟨fun outside => ?_, .step none⟩
  generalize whole : c :: before = text at outside
  cases outside with
  | here => cases whole
  | step _ behind =>
    cases whole
    exact behind
  | past taken behind =>
    rw [← List.append_assoc, ← whole, List.cons_append, none] at taken
    cases taken

theorem Outside.beyond {inner rest : Text}
    (taken : pattern.cut? (inner ++ rest) = some (inner, rest))
    (outside : pattern.Outside before after) (whole : before ++ after = inner ++ rest) :
    ∃ behind, before = inner ++ behind ∧ pattern.Outside behind after := by
  rw [← whole] at taken
  cases outside with
  | here none =>
    rw [List.nil_append, none] at taken
    cases taken
  | step none =>
    rw [List.cons_append, none] at taken
    cases taken
  | past found behind =>
    rw [List.append_assoc, found] at taken
    cases taken
    exact ⟨_, rfl, behind⟩

end Pattern

namespace Text

theorem firstColon_append {holds holds' : Text → Text → Prop} {inner rest before after : Text}
    (beyond : ∀ before after, before ++ ':' :: after = inner ++ rest → holds before after →
      inner <+: before)
    (shift : ∀ before after, before ++ ':' :: after = rest →
      (holds (inner ++ before) after ↔ holds' before after)) :
    FirstColon holds (inner ++ rest) before after ↔
      ∃ behind, inner ++ behind = before ∧ FirstColon holds' rest behind after := by
  have inside : ∀ {before after : Text}, before ++ ':' :: after = rest →
      (inner ++ before) ++ ':' :: after = inner ++ rest := by
    intro before after whole
    rw [List.append_assoc, whole]
  constructor
  · rintro ⟨whole, here, first⟩
    obtain ⟨behind, rfl⟩ := beyond before after whole here
    have same : behind ++ ':' :: after = rest :=
      List.append_cancel_left ((List.append_assoc _ _ _).symm.trans whole)
    refine ⟨behind, rfl, same, (shift behind after same).mp here, ?_⟩
    intro before' after' whole' here'
    have farther := first (inner ++ before') after' (inside whole')
      ((shift before' after' whole').mpr here')
    simpa using farther
  · rintro ⟨behind, rfl, whole, here, first⟩
    refine ⟨inside whole, (shift behind after whole).mpr here, ?_⟩
    intro before' after' whole' here'
    obtain ⟨before', rfl⟩ := beyond before' after' whole' here'
    have same : before' ++ ':' :: after' = rest :=
      List.append_cancel_left ((List.append_assoc _ _ _).symm.trans whole')
    have farther := first before' after' same ((shift before' after' same).mp here')
    simpa using farther

def HeadColonBehind (afterColon : Bool) (before after : Text) : Prop :=
  HeadColon before after ∧ (before = [] → afterColon = false)

theorem headColonBehind_cons {c : Char} {before after : Text} (afterColon : Bool)
    (none : Markup.pattern.cut? (c :: (before ++ ':' :: after)) = none) :
    HeadColonBehind afterColon (c :: before) after ↔ HeadColonBehind (c == ':') before after := by
  have front : (c :: before).getLast? ≠ some ':' ↔
      before.getLast? ≠ some ':' ∧ (before = [] → (c == ':') = false) := by
    rcases List.eq_nil_or_concat' before with rfl | ⟨start, d, rfl⟩
    · simp
    · rw [← List.cons_append, List.getLast?_concat, List.getLast?_concat]
      simp
  constructor
  · rintro ⟨⟨outside, free, back⟩, -⟩
    exact ⟨⟨(Pattern.outside_cons none).mp outside, (front.mp free).1, back⟩, (front.mp free).2⟩
  · rintro ⟨⟨outside, free, back⟩, notColon⟩
    exact ⟨⟨.step none outside, front.mpr ⟨free, notColon⟩, back⟩, nofun⟩

theorem headColonBehind_append {inner before after : Text} (afterColon : Bool)
    (taken : Markup.span? (inner ++ (before ++ ':' :: after)) =
      some (inner, before ++ ':' :: after)) :
    HeadColonBehind afterColon (inner ++ before) after ↔ HeadColonBehind false before after := by
  have front : (inner ++ before).getLast? ≠ some ':' ↔ before.getLast? ≠ some ':' := by
    rcases List.eq_nil_or_concat' before with rfl | ⟨start, d, rfl⟩
    · have ends := Markup.getLast?_of_span? taken rfl
      simp [ends, backtick]
    · rw [← List.append_assoc, List.getLast?_concat, List.getLast?_concat]
  have filled := Markup.span?_ne_nil taken
  rw [Markup.span?_eq] at taken
  constructor
  · rintro ⟨⟨outside, free, back⟩, -⟩
    obtain ⟨behind, same, outside⟩ := outside.beyond taken (List.append_assoc _ _ _)
    cases List.append_cancel_left same
    exact ⟨⟨outside, front.mp free, back⟩, fun _ => rfl⟩
  · rintro ⟨⟨outside, free, back⟩, -⟩
    refine ⟨⟨.past taken outside, front.mpr free, back⟩, fun empty => ?_⟩
    exact absurd (List.append_eq_nil_iff.mp empty).1 filled

theorem headColonBehind_nil {afterColon : Bool} {rest : Text}
    (none : Markup.span? (':' :: rest) = none) :
    HeadColonBehind afterColon [] rest ↔
      (!afterColon && !(Markup.pieces rest).head?.any Piece.isColon) = true := by
  have back : (rest.head? = some ':' → Markup.pattern.cut? rest ≠ Option.none) ↔
      ¬ (Markup.pieces rest).head?.any Piece.isColon = true := by
    rw [Markup.head?_pieces, not_and]
  rw [Markup.span?_eq] at none
  rw [Bool.and_eq_true, Bool.not_eq_true', Bool.not_eq_true', ← Bool.not_eq_true (Option.any _ _),
    ← back]
  constructor
  · rintro ⟨⟨-, -, starts⟩, free⟩
    exact ⟨free rfl, starts⟩
  · rintro ⟨free, starts⟩
    exact ⟨⟨.here none, nofun, starts⟩, fun _ => free⟩

theorem splitFrom_pieces_eq_some_iff (text : Text) {afterColon : Bool} {before after : Text} :
    Piece.splitFrom afterColon (Markup.pieces text) = some (before, after) ↔
      FirstColon (HeadColonBehind afterColon) text before after := by
  fun_induction Markup.pieces text generalizing afterColon before with
  | case1 =>
    constructor
    · intro split
      cases split
    · intro first
      exact absurd first.whole (by simp)
  | case2 c rest inner behind taken ih =>
    have whole := Markup.span?_append taken
    rw [← whole] at taken ⊢
    have beyond : ∀ before after, before ++ ':' :: after = inner ++ behind →
        HeadColonBehind afterColon before after → inner <+: before := by
      rintro before after whole ⟨⟨outside, -, -⟩, -⟩
      rw [Markup.span?_eq] at taken
      obtain ⟨front, rfl, -⟩ := outside.beyond taken whole
      exact List.prefix_append inner front
    have shift : ∀ before after, before ++ ':' :: after = behind →
        (HeadColonBehind afterColon (inner ++ before) after ↔
          HeadColonBehind false before after) := by
      rintro before after rfl
      exact headColonBehind_append afterColon taken
    rw [Piece.splitFrom_cons_of_passed rfl, firstColon_append beyond shift]
    exact exists_congr fun front => and_congr_right fun _ => ih
  | case3 c rest none ih =>
    by_cases ends : c = ':' ∧ (!afterColon && !(Markup.pieces rest).head?.any Piece.isColon) = true
    · obtain ⟨rfl, single⟩ := ends
      have here := (headColonBehind_nil none).mpr single
      have cut :
          Piece.splitFrom afterColon (.plain ':' :: Markup.pieces rest) = some ([], rest) := by
        rw [Piece.splitFrom, Piece.isColon_plain, Bool.and_assoc, single, Markup.textOf_pieces]
        rfl
      rw [cut]
      constructor
      · intro same
        cases same
        exact ⟨rfl, here, fun _ _ _ _ => Nat.zero_le _⟩
      · rintro ⟨whole, -, first⟩
        cases List.length_eq_zero_iff.mp (Nat.le_zero.mp (first [] rest rfl here))
        cases whole
        rfl
    · have passed : (Piece.isColon (.plain c) && !afterColon &&
          !(Markup.pieces rest).head?.any Piece.isColon) = false := by
        rw [Piece.isColon_plain, Bool.and_assoc, Bool.eq_false_iff]
        intro single
        rw [Bool.and_eq_true, beq_iff_eq] at single
        exact ends single
      have beyond : ∀ before after, before ++ ':' :: after = [c] ++ rest →
          HeadColonBehind afterColon before after → [c] <+: before := by
        intro before after whole here
        cases before with
        | nil =>
          cases whole
          exact absurd ⟨rfl, (headColonBehind_nil none).mp here⟩ ends
        | cons d before =>
          cases whole
          exact List.prefix_append [c] before
      have shift : ∀ before after, before ++ ':' :: after = rest →
          (HeadColonBehind afterColon ([c] ++ before) after ↔
            HeadColonBehind (c == ':') before after) := by
        rintro before after rfl
        rw [Markup.span?_eq] at none
        exact headColonBehind_cons afterColon none
      rw [Piece.splitFrom_cons_of_passed passed, ← List.singleton_append,
        firstColon_append beyond shift, Piece.isColon_plain]
      exact exists_congr fun front => and_congr_right fun _ => ih

theorem splitColon?_eq_some_iff {line : Text} {parts : Text × Text} :
    line.splitColon? = some parts ↔
      ∃ before after, FirstColon HeadColon line before after ∧
        (before.trim, after.trim) = parts := by
  have fresh : HeadColonBehind false = HeadColon := by
    funext before after
    exact propext (and_iff_left fun _ => rfl)
  rw [← fresh]
  simp only [splitColon?, Option.map_eq_some_iff, Prod.exists, splitFrom_pieces_eq_some_iff]

theorem exists_firstColon {holds : Text → Text → Prop} {line before after : Text}
    (whole : before ++ ':' :: after = line) (here : holds before after) :
    ∃ before after, FirstColon holds line before after := by
  induction size : before.length using Nat.strongRecOn generalizing before after with
  | ind n ih =>
    by_cases earlier : ∃ before' after', before' ++ ':' :: after' = line ∧ holds before' after' ∧
        before'.length < before.length
    · obtain ⟨before', after', whole', here', shorter⟩ := earlier
      exact ih before'.length (size ▸ shorter) whole' here' rfl
    · refine ⟨before, after, whole, here, fun before' after' whole' here' => ?_⟩
      exact Nat.le_of_not_lt fun shorter => earlier ⟨before', after', whole', here', shorter⟩

theorem splitColon?_eq_none_iff {line : Text} :
    line.splitColon? = none ↔
      ∀ before after, before ++ ':' :: after = line → ¬ HeadColon before after := by
  constructor
  · intro none before after whole here
    obtain ⟨before, after, first⟩ := exists_firstColon whole here
    rw [splitColon?_eq_some_iff.mpr ⟨before, after, first, rfl⟩] at none
    cases none
  · intro never
    rw [Option.eq_none_iff_forall_ne_some]
    intro parts found
    obtain ⟨before, after, first, -⟩ := splitColon?_eq_some_iff.mp found
    exact never before after first.whole first.here

/-- A line is split at the first colon that ends a head, and both parts are trimmed. If there is
none, the whole line is head. -/
theorem splitColon?_at_firstColon (line : Text) :
    (∀ parts, line.splitColon? = some parts ↔
      ∃ before after, FirstColon HeadColon line before after ∧
        (before.trim, after.trim) = parts) ∧
    ((∀ before after, before ++ ':' :: after = line → ¬ HeadColon before after) ↔
      line.splitColon? = none) ∧
    Field.headAndText line = line.splitColon?.getD (line.trim, []) := by
  refine ⟨fun parts => splitColon?_eq_some_iff, splitColon?_eq_none_iff.symm, ?_⟩
  rw [Field.headAndText]
  cases line.splitColon? <;> rfl

/-- Of two colons in front of a role reference the first one ends the head, though it has a colon
beside it. -/
theorem not_forall_splitColon?_single :
    ¬ ∀ line parts, splitColon? line = some parts ↔
      ∃ before after, FirstColon SingleColon line before after ∧
        (before.trim, after.trim) = parts := by
  intro single
  have split : splitColon? "x::class:`A`: Desc." =
      some (("x" : Text), (":class:`A`: Desc." : Text)) := by decide +kernel
  obtain ⟨before, after, ⟨whole, here, -⟩, same⟩ := (single _ _).mp split
  obtain ⟨head, -⟩ := Prod.mk.inj same
  have line : ("x::class:`A`: Desc." : Text) = 'x' :: ':' :: ':' :: "class:`A`: Desc." := rfl
  rw [line] at whole
  cases before with
  | nil => cases (List.cons.inj whole).1
  | cons c before =>
    replace whole := (List.cons.inj whole).2
    cases before with
    | nil =>
      cases whole
      exact here.back rfl
    | cons d before =>
      cases (List.cons.inj whole).1
      have kept : ':' ∈ trim (c :: ':' :: before) := (mem_trim_iff (by decide)).mpr (by simp)
      rw [head] at kept
      revert kept
      decide

end Text

end DocMarkup
