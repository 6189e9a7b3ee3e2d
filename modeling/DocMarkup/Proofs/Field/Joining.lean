import DocMarkup.Proofs.Checked.Reading
import DocMarkup.Proofs.Field.HeaderText

namespace DocMarkup

open Text

namespace Wrapped

theorem ink_glue (text fragment : Text) : (glue text fragment).ink = text.ink ++ fragment.ink := by
  obtain ⟨gap, isGap, glued⟩ := exists_glue text fragment
  rw [glued, ink_append, ink_append, ink_eq_nil_iff.mpr isGap.isMargin, List.append_nil]

theorem ink_foldl_glue (text : Text) (fragments : List Text) :
    (fragments.foldl glue text).ink = text.ink ++ fragments.flatMap ink := by
  induction fragments generalizing text with
  | nil => simp
  | cons fragment fragments ih =>
    rw [List.foldl_cons, ih, ink_glue, List.append_assoc, List.flatMap_cons]

theorem ink_spaceCommas (text : Text) : (spaceCommas text).ink = text.ink := by
  induction text using comma_induction with
  | whole text absent => rw [spaceCommas_of_not_mem absent, ink_trim]
  | cut before after absent ih =>
    have comma : ink ", " = [','] := by decide
    rw [spaceCommas_comma, spaceCommas_of_not_mem absent, ink_append, ink_append, ink_trim, ih,
      comma, ink_append, ink_cons (by decide), List.append_assoc]
    rfl

theorem flatMap_ink_trim (lines : Block) :
    ((lines.map Text.trim).filter (· ≠ [])).flatMap ink = lines.flatMap ink := by
  induction lines with
  | nil => rfl
  | cons line lines ih =>
    rw [List.map_cons, List.flatMap_cons, ← ih, ← ink_trim line]
    by_cases blank : line.trim = [] <;> simp [blank]

theorem ink_joined (lines : Block) : (joined lines).ink = lines.flatMap ink := by
  rw [joined, ink_spaceCommas, ink_foldl_glue, flatMap_ink_trim, ink_nil, List.nil_append]

theorem prefix_foldl_glue (text : Text) (fragments : List Text) :
    text <+: fragments.foldl glue text := by
  induction fragments generalizing text with
  | nil => exact List.prefix_refl text
  | cons fragment fragments ih =>
    obtain ⟨gap, -, glued⟩ := exists_glue text fragment
    apply List.IsPrefix.trans _ (ih (glue text fragment))
    rw [glued, List.append_assoc]
    exact List.prefix_append text _

theorem margin_spaceCommas {c : Char} (content : isBlank c = false) (noComma : c ≠ ',')
    (text : Text) : (spaceCommas (c :: text)).margin = [] := by
  by_cases member : ',' ∈ c :: text
  · obtain ⟨before, after, same, absent⟩ := List.eq_append_cons_of_mem member
    cases before with
    | nil => exact absurd (List.cons.inj same).1 noComma
    | cons d before =>
      obtain ⟨rfl, -⟩ := List.cons.inj same
      have front := trim_ne_nil (margin_cons_of_content content before) (List.cons_ne_nil _ _)
      rw [same, spaceCommas_comma, spaceCommas_of_not_mem absent, List.append_assoc]
      exact margin_append_of_nonempty (margin_trim _) front _
  · rw [spaceCommas_of_not_mem member]
    exact margin_trim _

theorem exists_first_of_isStart {line : Text} (start : isStart line = true) :
    ∃ c rest, line.trimStart = c :: rest ∧ c ≠ ',' := by
  cases front : line.trimStart with
  | nil =>
    rw [isStart, front] at start
    cases start
  | cons c rest =>
    refine ⟨c, rest, rfl, ?_⟩
    rintro rfl
    rw [isStart, front] at start
    cases start

theorem margin_joined {header : Text} (start : isStart header = true) (rest : Block) :
    (joined (header :: rest)).margin = [] := by
  obtain ⟨c, behind, front, noComma⟩ := exists_first_of_isStart start
  have content : isBlank c = false := by
    have starts := margin_trimStart header
    rw [front] at starts
    exact isBlank_head_of_margin starts
  have trimmed : header.trim = c :: trimEnd behind := by
    have first : trimEnd [c] = [c] := trimEnd_append_of_content content []
    rw [trim, front]
    exact trimEnd_append_left first behind
  have kept : ((header :: rest).map Text.trim).filter (· ≠ []) =
      header.trim :: (rest.map Text.trim).filter (· ≠ []) := by
    simp [trimmed]
  obtain ⟨behind, same⟩ := prefix_foldl_glue header.trim ((rest.map Text.trim).filter (· ≠ []))
  have alone : glue [] header.trim = header.trim := rfl
  rw [joined, kept, List.foldl_cons, alone, ← same, trimmed, List.cons_append]
  exact margin_spaceCommas content noComma _

/-- The lines begin with a header that leaves its parenthesis open, and `closing` is the first line
behind it that closes one. No more than `bound` lines continue the header, and none of them is blank
or a wrapped header. -/
structure WrapsOver (bound : Nat) (lines : Block) (header : Text) (between : Block) (closing : Text)
    (below : Block) : Prop where
  whole : lines = header :: (between ++ closing :: below)
  near : between.length < bound
  start : isStart header = true
  continues : ∀ line ∈ between, Continues line
  closes : Closes closing

section WrapsOver

variable {bound : Nat} {lines : Block} {header : Text} {between : Block} {closing : Text}
  {below : Block}

theorem WrapsOver.continuation? (wraps : WrapsOver bound lines header between closing below) :
    Wrapped.continuation? bound lines.tail = some (between.length + 1) := by
  rw [wraps.whole]
  exact continuation?_of_closes wraps.continues wraps.closes wraps.near

theorem WrapsOver.join (wraps : WrapsOver bound lines header between closing below) :
    Wrapped.join bound lines =
      (header.margin ++ joined (header :: (between ++ [closing]))) :: below := by
  have reach := wraps.continuation?
  have parts : between ++ closing :: below = (between ++ [closing]) ++ below := by
    rw [List.append_assoc, List.singleton_append]
  have count : between.length + 1 = (between ++ [closing]).length := by simp
  rw [wraps.whole, List.tail_cons, count, parts] at reach
  rw [wraps.whole, parts, Wrapped.join, if_pos wraps.start, reach]
  simp only [List.take_left, List.drop_left]

theorem WrapsOver.farther (wraps : WrapsOver bound lines header between closing below)
    (more : Nat) : WrapsOver (bound + more) lines header between closing below :=
  { wraps with near := Nat.lt_of_lt_of_le wraps.near (Nat.le_add_right bound more) }

end WrapsOver

theorem join_eq_self {bound : Nat} {lines : Block}
    (apart : ¬ ∃ header between closing below,
      WrapsOver bound lines header between closing below) : join bound lines = lines := by
  cases lines with
  | nil => rfl
  | cons header rest =>
    rw [join]
    split
    · rename_i start
      split
      · rename_i n found
        obtain ⟨between, closing, below, rfl, -, near, continues, closes⟩ :=
          continuation?_eq_some_iff.mp found
        exact absurd ⟨header, between, closing, below, rfl, near, start, continues, closes⟩ apart
      · rfl
    · rfl

end Wrapped

namespace Checked

open Wrapped

theorem wrapLength?_of_wrapsOver {cursor : LineCursor} {bound : Nat} {header closing : Text}
    {between below : Block}
    (wraps : WrapsOver bound cursor.toList header between closing below) :
    wrapLength? cursor bound 1 = some (between.length + 2) := by
  rw [wrapLength?_eq, List.drop_one, wraps.continuation?, Option.map_some]

theorem joinWrapped_congr {cursor : LineCursor} {bound other : Nat}
    (same : wrapLength? cursor bound 1 = wrapLength? cursor other 1) :
    joinWrapped bound cursor = joinWrapped other cursor := by
  unfold joinWrapped
  rw [same]

/-- Looking ahead for the end of a wrapped header never fails. It leaves all lines as they are, or
puts one line in the place of the header and of the lines up to the first that closes it. This line
has the blanks of the header in front and all other characters of those lines in their order. A
header that is joined is joined alike where more lines may continue it. -/
theorem joinWrapped_all_or_nothing (bound : Nat) (cursor : LineCursor) :
    ∃ rest, joinWrapped bound cursor = .ok rest ∧ rest.toList = join bound cursor.toList ∧
      (rest.toList = cursor.toList ∧ (¬ ∃ header between closing below,
          WrapsOver bound cursor.toList header between closing below) ∨
        ∃ header between closing below line,
          WrapsOver bound cursor.toList header between closing below ∧
          rest.toList = line :: below ∧ line.margin = header.margin ∧
          line.ink = (header :: (between ++ [closing])).flatMap ink ∧
          ∀ more, joinWrapped (bound + more) cursor = .ok rest) := by
  obtain ⟨rest, joins, left⟩ := joinWrapped_eq bound cursor
  refine ⟨rest, joins, left, ?_⟩
  by_cases wrapped : ∃ header between closing below,
      WrapsOver bound cursor.toList header between closing below
  · right
    obtain ⟨header, between, closing, below, wraps⟩ := wrapped
    have blank := isMargin_margin header
    rw [wraps.join] at left
    refine ⟨header, between, closing, below, _, wraps, left, ?_, ?_, fun more => ?_⟩
    · rw [margin_append blank, margin_joined wraps.start, List.append_nil]
    · rw [ink_append, ink_eq_nil_iff.mpr blank, List.nil_append, ink_joined]
    · rw [← joins]
      apply joinWrapped_congr
      rw [wrapLength?_of_wrapsOver (wraps.farther more), wrapLength?_of_wrapsOver wraps]
  · left
    exact ⟨left.trans (join_eq_self wrapped), wrapped⟩

end Checked

end DocMarkup
