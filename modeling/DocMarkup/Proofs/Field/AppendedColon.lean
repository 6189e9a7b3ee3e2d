import DocMarkup.Proofs.Field.ColonPlace
import DocMarkup.Proofs.Field.HeaderText
import DocMarkup.Proofs.Field.PlainText
import DocMarkup.Proofs.Text.Trim
import Mathlib.Data.List.TakeWhile

namespace DocMarkup

namespace Markup

def Cut.withColon (cut : Cut) : Cut := cut.map fun (inner, rest) => (inner, rest ++ [':'])

theorem Cut.withColon_map (f : Text → Text) (cut : Cut) :
    Cut.withColon (cut.map fun (inner, rest) => (f inner, rest)) =
      cut.withColon.map fun (inner, rest) => (f inner, rest) := by
  cases cut <;> rfl

theorem throughBacktick?_colon (text : Text) :
    throughBacktick? (text ++ [':']) = (throughBacktick? text).withColon := by
  induction text with
  | nil => decide
  | cons c text ih =>
    rw [List.cons_append, throughBacktick?_cons, throughBacktick?_cons, ih]
    split
    · rfl
    · split
      · rfl
      · exact (Cut.withColon_map _ _).symm

theorem throughBackticks?_colon (text : Text) :
    throughBackticks? (text ++ [':']) = (throughBackticks? text).withColon := by
  induction text with
  | nil => decide
  | cons c text ih =>
    have head : ((text ++ [':']).head? == some backtick) = (text.head? == some backtick) := by
      cases text <;> rfl
    rw [List.cons_append, throughBackticks?, throughBackticks?, ih, head]
    split
    · rfl
    · by_cases closes : (c == backtick && text.head? == some backtick) = true
      · rw [if_pos closes, if_pos closes]
        cases text with
        | nil => simp at closes
        | cons d text => rfl
      · rw [if_neg closes, if_neg closes]
        exact (Cut.withColon_map _ _).symm

theorem contentThen?_colon {through? : Text → Cut} (nothing : through? [] = none)
    (same : ∀ text, through? (text ++ [':']) = (through? text).withColon) (text : Text) :
    contentThen? through? (text ++ [':']) = (contentThen? through? text).withColon := by
  cases text with
  | nil =>
    change Option.map _ (through? []) = none
    rw [nothing]
    rfl
  | cons c text =>
    rw [List.cons_append, contentThen?, contentThen?, same]
    split
    · rfl
    · exact (Cut.withColon_map _ _).symm

theorem interpreted?_colon (text : Text) :
    interpreted? (text ++ [':']) = (interpreted? text).withColon := by
  cases text with
  | nil => decide
  | cons c text =>
    rw [List.cons_append, interpreted?, interpreted?,
      contentThen?_colon rfl throughBacktick?_colon]
    split
    · exact (Cut.withColon_map _ _).symm
    · rfl

theorem after?_colon {start : Text} (last : start.getLast? ≠ some ':') (text : Text) :
    Text.after? start (text ++ [':']) = (Text.after? start text).map (· ++ [':']) := by
  induction start generalizing text with
  | nil => rfl
  | cons s start ih =>
    cases text with
    | nil =>
      cases start with
      | nil => exact if_neg fun same => last (by rw [same]; rfl)
      | cons d start => exact ite_self _
    | cons c text =>
      rw [List.cons_append, Text.after?, Text.after?]
      split
      · cases start with
        | nil => rfl
        | cons d start =>
          exact ih (by rwa [List.getLast?_cons_cons] at last) text
      · rfl

theorem literal?_colon (text : Text) :
    literal? (text ++ [':']) = (literal? text).withColon := by
  rw [literal?, literal?, after?_colon (by decide)]
  cases Text.after? "``" text with
  | none => rfl
  | some rest =>
    simp only [Option.map_some, contentThen?_colon rfl throughBackticks?_colon]
    exact (Cut.withColon_map _ _).symm

theorem takeWhile_append_of_stops {p : Char → Bool} {text : Text} (stops : text.dropWhile p ≠ [])
    (more : Text) :
    (text ++ more).takeWhile p = text.takeWhile p ∧
      (text ++ more).dropWhile p = text.dropWhile p ++ more := by
  have behind : (text ++ more).dropWhile p = text.dropWhile p ++ more := by
    rw [List.dropWhile_append, if_neg (by simpa using stops)]
  refine ⟨?_, behind⟩
  have whole := List.takeWhile_append_dropWhile (p := p) (l := text ++ more)
  rw [behind, ← List.append_assoc] at whole
  exact List.append_cancel_right
    ((List.append_cancel_right whole).trans List.takeWhile_append_dropWhile.symm)

theorem takeWhile_append_of_all {p : Char → Bool} {text : Text} (all : text.dropWhile p = [])
    {c : Char} (accepted : p c = true) :
    text.takeWhile p = text ∧ (text ++ [c]).takeWhile p = text ++ [c] ∧
      (text ++ [c]).dropWhile p = [] := by
  have every := List.dropWhile_eq_nil_iff.mp all
  refine ⟨List.takeWhile_eq_self_iff.mpr every, ?_, ?_⟩
  · rw [List.takeWhile_append_of_pos every, List.takeWhile_cons_of_pos accepted, List.takeWhile_nil]
  · rw [List.dropWhile_append_of_pos every, List.dropWhile_cons_of_pos accepted, List.dropWhile_nil]

theorem reference?_colon (text : Text) :
    reference? (text ++ [':']) = (reference? text).withColon := by
  by_cases all : text.dropWhile isRoleChar = []
  · have untargeted : ∀ role : Text, role.dropWhile isRoleChar = [] → reference? role = none := by
      intro role all
      rw [reference?, all]
      exact ite_self _
    have longer := (takeWhile_append_of_all all (by decide : isRoleChar ':' = true)).2.2
    rw [untargeted _ longer, untargeted _ all]
    rfl
  · obtain ⟨role, target⟩ := takeWhile_append_of_stops all [':']
    rw [reference?, reference?, role, target, interpreted?_colon]
    split
    · exact (Cut.withColon_map _ _).symm
    · rfl

theorem metadata?_colon_of_some {text inner rest : Text}
    (taken : metadata? text = some (inner, rest)) :
    metadata? (text ++ [':']) =
      some (if rest = [] then (inner ++ [':'], []) else (inner, rest ++ [':'])) := by
  rw [metadata?] at taken
  split at taken
  · cases taken
  · rename_i content start
    rw [Option.ite_none_right_eq_some] at taken
    obtain ⟨closed, same⟩ := taken
    cases same
    rw [metadata?, after?_colon (by decide), start]
    simp only [Option.map_some]
    by_cases last : content.dropWhile (· != '\n') = []
    · obtain ⟨line, line', behind'⟩ :=
        takeWhile_append_of_all last (by decide : (':' != '\n') = true)
      have closes : ((content ++ [':']).tail.contains ':') = true := by
        cases content with
        | nil => cases closed
        | cons c content => simp
      rw [line', behind', if_pos closes, if_pos last, line, List.append_assoc]
    · obtain ⟨line, behind⟩ := takeWhile_append_of_stops last [':']
      rw [line, behind, if_pos closed, if_neg last]

/-- A metadata field that one colon more closes. -/
def OpensMetadata (text : Text) : Prop :=
  ∃ content : Text, text = ":meta " ++ content ∧ content ≠ [] ∧ '\n' ∉ content ∧
    ':' ∉ content.tail

theorem metadata?_colon_of_none {text : Text} (closed : ¬ OpensMetadata text)
    (none : metadata? text = none) : metadata? (text ++ [':']) = Option.none := by
  rw [metadata?] at none ⊢
  rw [after?_colon (by decide)]
  cases start : Text.after? ":meta " text with
  | none => rfl
  | some content =>
    rw [start] at none
    simp only [Option.map_some] at none ⊢
    by_cases last : content.dropWhile (· != '\n') = []
    · obtain ⟨line, line', -⟩ := takeWhile_append_of_all last (by decide : (':' != '\n') = true)
      have empty : content = [] := by
        refine Decidable.byContradiction fun filled => closed ⟨content, ?_, filled, ?_, ?_⟩
        · exact Text.after?_eq_some_iff.mp start
        · intro feed
          have stops := List.dropWhile_eq_nil_iff.mp last '\n' feed
          cases stops
        · intro colon
          rw [line, if_pos (by simpa using colon)] at none
          cases none
      rw [line', empty]
      rfl
    · obtain ⟨line, behind⟩ := takeWhile_append_of_stops last [':']
      rw [line]
      split at none
      · cases none
      · rename_i open_
        rw [if_neg open_]

theorem span?_colon_of_some {text inner rest : Text} (taken : span? text = some (inner, rest))
    (more : rest ≠ []) : span? (text ++ [':']) = some (inner, rest ++ [':']) := by
  rw [span?_eq_or] at taken ⊢
  rw [reference?_colon, literal?_colon, interpreted?_colon]
  cases role : reference? text with
  | some cut =>
    rw [role] at taken
    cases taken
    rfl
  | none =>
    cases ticks : literal? text with
    | some cut =>
      rw [role, ticks] at taken
      cases taken
      rfl
    | none =>
      rw [role, ticks] at taken
      cases data : metadata? text with
      | some cut =>
        rw [data] at taken
        cases taken
        rw [metadata?_colon_of_some data, if_neg more]
        rfl
      | none =>
        rw [data] at taken
        have taken : interpreted? text = some (inner, rest) := taken
        have noData : metadata? (text ++ [':']) = none := by
          cases text with
          | nil => cases taken
          | cons c text =>
            refine metadata?_eq_none ?_ (text ++ [':'])
            rintro rfl
            cases taken
        rw [noData, taken]
        rfl

theorem span?_colon_eq_none_iff {text : Text} (closed : ¬ OpensMetadata text) :
    span? (text ++ [':']) = none ↔ span? text = none := by
  have data : metadata? (text ++ [':']) = none ↔ metadata? text = none := by
    refine ⟨fun none => ?_, metadata?_colon_of_none closed⟩
    refine Option.eq_none_iff_forall_ne_some.mpr fun cut taken => ?_
    rw [metadata?_colon_of_some taken] at none
    cases none
  simp only [span?_eq_or, Option.or_eq_none_iff, reference?_colon, literal?_colon,
    interpreted?_colon, Cut.withColon, Option.map_eq_none_iff, data]

end Markup

namespace Text

/-- There is a metadata field in the line that one colon more behind the line closes. -/
def LeavesMetadataOpen (line : Text) : Prop :=
  ∃ front rest : Text, line = front ++ rest ∧ Markup.OpensMetadata rest

theorem LeavesMetadataOpen.append {rest : Text} (leaves : rest.LeavesMetadataOpen) (front : Text) :
    LeavesMetadataOpen (front ++ rest) := by
  obtain ⟨middle, rest, rfl, opens⟩ := leaves
  exact ⟨front ++ middle, rest, (List.append_assoc _ _ _).symm, opens⟩

theorem LeavesMetadataOpen.isInfix {line : Text} (leaves : line.LeavesMetadataOpen) :
    (":meta " : Text) <:+: line := by
  obtain ⟨front, _, rfl, content, rfl, -⟩ := leaves
  exact ⟨front, content, List.append_assoc _ _ _⟩

theorem head?_pieces_colon {text : Text} (filled : text ≠ []) (closed : ¬ LeavesMetadataOpen text) :
    (Markup.pieces (text ++ [':'])).head?.any Piece.isColon =
      (Markup.pieces text).head?.any Piece.isColon := by
  have here : ¬ Markup.OpensMetadata text := fun opens => closed ⟨[], text, rfl, opens⟩
  rw [Bool.eq_iff_iff, Markup.head?_pieces, Markup.head?_pieces, ← Markup.span?_eq,
    ← Markup.span?_eq, Markup.span?_colon_eq_none_iff here, List.head?_append_of_ne_nil _ filled]

theorem splitFrom_pieces_colon {text : Text} (closed : ¬ LeavesMetadataOpen text)
    (last : text.getLast? ≠ some ':') {afterColon : Bool} {before after : Text}
    (split : Piece.splitFrom afterColon (Markup.pieces text) = some (before, after)) :
    Piece.splitFrom afterColon (Markup.pieces (text ++ [':'])) = some (before, after ++ [':']) := by
  fun_induction Markup.pieces text generalizing afterColon before with
  | case1 => cases split
  | case2 c rest inner behind taken ih =>
    obtain ⟨front, same, found⟩ := (Piece.splitFrom_cons_of_passed rfl).mp split
    have filled : behind ≠ [] := by
      rintro rfl
      rw [Markup.pieces] at found
      cases found
    rw [Markup.pieces_of_some (Markup.span?_colon_of_some taken filled),
      Piece.splitFrom_cons_of_passed rfl]
    rw [← Markup.span?_append taken] at closed last
    refine ⟨front, same, ih (fun leaves => closed (leaves.append inner)) ?_ found⟩
    rwa [List.getLast?_append_of_ne_nil _ filled] at last
  | case3 c rest none ih =>
    have here : ¬ Markup.OpensMetadata (c :: rest) := fun opens => closed ⟨[], _, rfl, opens⟩
    have none' := (Markup.span?_colon_eq_none_iff here).mpr none
    have closed' : ¬ LeavesMetadataOpen rest := fun leaves => closed (leaves.append [c])
    by_cases filled : rest = []
    · subst filled
      have other : Piece.isColon (.plain c) = false := by
        rw [Piece.isColon_plain]
        exact beq_false_of_ne fun same => last (by rw [same]; rfl)
      rw [Markup.pieces, Piece.splitFrom, other] at split
      cases split
    · have next := head?_pieces_colon filled closed'
      rw [List.cons_append] at none' ⊢
      rw [Markup.pieces_of_none none']
      by_cases single : (Piece.isColon (.plain c) && !afterColon &&
          !(Markup.pieces rest).head?.any Piece.isColon) = true
      · rw [Piece.splitFrom, if_pos single, Markup.textOf_pieces] at split
        cases split
        rw [Piece.splitFrom, next, if_pos single, Markup.textOf_pieces]
      · have passed := Bool.eq_false_iff.mpr single
        obtain ⟨front, same, found⟩ := (Piece.splitFrom_cons_of_passed passed).mp split
        rw [List.getLast?_cons_of_ne_nil filled] at last
        rw [← next] at passed
        exact (Piece.splitFrom_cons_of_passed passed).mpr ⟨front, same, ih closed' last found⟩

theorem splitColon?_colon {line before after : Text} (trimmed : line.trimEnd = line)
    (closed : ¬ LeavesMetadataOpen line) (last : line.getLast? ≠ some ':')
    (split : line.splitColon? = some (before, after)) :
    splitColon? (line ++ [':']) = some (before, after ++ [':']) := by
  obtain ⟨⟨front, rest⟩, found, same⟩ := Option.map_eq_some_iff.mp split
  cases same
  have whole := Piece.splitFrom_append found
  rw [Markup.textOf_pieces, List.append_cons] at whole
  rw [← whole] at trimmed
  have ends := trimEnd_of_append_right (front ++ [':']) trimmed
  rw [splitColon?, splitFrom_pieces_colon closed last found]
  change some (front.trim, trim (rest ++ [':'])) = _
  rw [trim_append_of_content ends (by decide)]

end Text

end DocMarkup
