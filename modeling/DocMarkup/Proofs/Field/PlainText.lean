import DocMarkup.Field.Colon
import DocMarkup.Proofs.Text.Margin

namespace DocMarkup

open Text

namespace Markup

theorem reference?_eq_none {c : Char} (h : c ≠ ':') (rest : Text) : reference? (c :: rest) = none := by
  have other : isRole ((c :: rest).takeWhile isRoleChar) = false := by
    rw [List.takeWhile_cons]
    split
    · unfold isRole
      split
      · rename_i same
        exact absurd (List.cons.inj same).1 h
      · rfl
    · rfl
  rw [reference?, other]
  rfl

theorem literal?_eq_none {c : Char} (h : c ≠ backtick) (rest : Text) :
    literal? (c :: rest) = none := by
  have other : Text.after? "``" (c :: rest) = none := if_neg (Ne.symm h)
  rw [literal?, other]

theorem metadata?_eq_none {c : Char} (h : c ≠ ':') (rest : Text) : metadata? (c :: rest) = none := by
  have other : Text.after? ":meta " (c :: rest) = none := if_neg (Ne.symm h)
  rw [metadata?, other]

theorem interpreted?_eq_none {c : Char} (h : c ≠ backtick) (rest : Text) :
    interpreted? (c :: rest) = none := by
  simp [interpreted?, h]

theorem span?_eq_none {c : Char} (colon : c ≠ ':') (tick : c ≠ backtick) (rest : Text) :
    span? (c :: rest) = none := by
  simp [span?, reference?_eq_none colon, literal?_eq_none tick, metadata?_eq_none colon,
    interpreted?_eq_none tick]

theorem pieces_append {front : Text} (colon : ':' ∉ front) (tick : backtick ∉ front)
    (rest : Text) : pieces (front ++ rest) = front.map .plain ++ pieces rest := by
  induction front with
  | nil => rfl
  | cons c front ih =>
    simp only [List.mem_cons, not_or] at colon tick
    rw [List.cons_append, pieces_of_none (span?_eq_none (Ne.symm colon.1) (Ne.symm tick.1) _),
      ih colon.2 tick.2, List.map_cons, List.cons_append]

theorem span?_colon {rest : Text} (spaced : ∀ c ∈ rest.head?, c = ' ') :
    span? (':' :: rest) = none := by
  cases rest with
  | nil => decide
  | cons c rest =>
    obtain rfl := spaced c rfl
    have noReference : reference? (':' :: ' ' :: rest) = none := by
      have role : (':' :: ' ' :: rest).takeWhile isRoleChar = [':'] := by
        rw [List.takeWhile_cons_of_pos (by decide), List.takeWhile_cons_of_neg (by decide)]
      rw [reference?, role]
      rfl
    have noMetadata : metadata? (':' :: ' ' :: rest) = none := by
      have other : Text.after? ":meta " (':' :: ' ' :: rest) = none := rfl
      rw [metadata?, other]
    simp [span?, noReference, noMetadata, literal?_eq_none (by decide : ':' ≠ backtick),
      interpreted?_eq_none (by decide : ':' ≠ backtick)]

theorem isColon_head?_pieces {text : Text} (spaced : ∀ c ∈ text.head?, c = ' ') :
    (pieces text).head?.any Piece.isColon = false := by
  cases text with
  | nil => simp [pieces]
  | cons c rest =>
    obtain rfl := spaced c rfl
    rw [pieces_of_none (span?_eq_none (by decide) (by decide) rest)]
    rfl

end Markup

theorem Piece.splitFrom_plain {front : Text} (colon : ':' ∉ front) (pieces : List Piece) :
    splitFrom false (front.map .plain ++ pieces) =
      (splitFrom false pieces).map fun (before, after) => (front ++ before, after) := by
  induction front with
  | nil => simp
  | cons c front ih =>
    simp only [List.mem_cons, not_or] at colon
    have other : (plain c).isColon = false := by
      rw [isColon_plain, beq_false_of_ne (Ne.symm colon.1)]
    rw [List.map_cons, List.cons_append, splitFrom, other, ih colon.2]
    cases splitFrom false pieces <;> rfl

theorem Text.splitColon?_append {front rest : Text} (colon : ':' ∉ front)
    (tick : backtick ∉ front) (spaced : ∀ c ∈ rest.head?, c = ' ') :
    splitColon? (front ++ ':' :: rest) = some (front.trim, rest.trim) := by
  have single : Piece.splitFrom false (Markup.pieces (':' :: rest)) = some ([], rest) := by
    rw [Markup.pieces_of_none (Markup.span?_colon spaced), Piece.splitFrom, Piece.isColon_plain,
      Markup.isColon_head?_pieces spaced, Markup.textOf_pieces]
    rfl
  rw [splitColon?, Markup.pieces_append colon tick, Piece.splitFrom_plain colon, single]
  simp

theorem Text.splitColon?_blank {c : Char} (blank : isBlank c = true) (line : Text) :
    splitColon? (c :: line) = splitColon? line := by
  have colon : c ≠ ':' := by
    rintro rfl
    cases blank
  have tick : c ≠ backtick := by
    rintro rfl
    cases blank
  have first : Markup.pieces (c :: line) = .plain c :: Markup.pieces line :=
    Markup.pieces_of_none (Markup.span?_eq_none colon tick line)
  have single : IsMargin [c] := fun d member => List.mem_singleton.mp member ▸ blank
  have trimmed : ∀ text : Text, trim (c :: text) = trim text := trim_append single
  rw [splitColon?, first, Piece.splitFrom, Piece.isColon_plain, beq_false_of_ne colon, splitColon?]
  cases Piece.splitFrom false (Markup.pieces line) with
  | none => rfl
  | some parts => simp [trimmed, Piece.text]

end DocMarkup
