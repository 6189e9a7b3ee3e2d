import DocMarkup.Proofs.Field.Layout
import DocMarkup.Proofs.Field.LookAhead
import DocMarkup.Proofs.Field.PlainText

namespace DocMarkup

open Text

namespace Text

theorem closedPiece?_margin {gap : Text} (blank : gap.IsMargin) :
    closedPiece? (gap ++ [')']) = none := by
  induction gap with
  | nil => decide
  | cons c gap ih =>
    obtain ⟨first, others⟩ := List.forall_mem_cons.mp blank
    rw [List.cons_append, closedPiece?, ih others, first]
    simp

theorem closedPiece?_append {type gap : Text} (nonempty : type ≠ []) (ends : type.trimEnd = type)
    (line : '\n' ∉ type) (blank : gap.IsMargin) :
    closedPiece? (type ++ (gap ++ [')'])) = some type := by
  induction type with
  | nil => exact absurd rfl nonempty
  | cons c type ih =>
    simp only [List.mem_cons, not_or] at line
    have first : (c == '\n') = false := by simpa using Ne.symm line.1
    rw [List.cons_append, closedPiece?, first]
    cases type with
    | nil =>
      have content : isBlank c = false := trimEnd_eq_self_iff.mp ends c rfl
      have closes : trimStart (gap ++ [')']) = [')'] := by
        rw [trimStart_append blank]
        decide
      simp [closedPiece?_margin blank, content, closes]
    | cons d type =>
      have behind := ih (by simp) (trimEnd_of_append_right [c] ends) line.2
      rw [List.cons_append] at behind ⊢
      rw [behind]
      rfl

theorem splitTyped?_append {front inside type : Text} (line : '\n' ∉ front) (opens : '(' ∉ front)
    (closed : closedPiece? inside.trimStart = some type) :
    splitTyped? (front ++ ' ' :: '(' :: inside) = some (front ++ [' '], type) := by
  induction front with
  | nil => simp [splitTyped?, closed]
  | cons c front ih =>
    simp only [List.mem_cons, not_or] at line opens
    have first : (c == '\n') = false := by simpa using Ne.symm line.1
    have other : ((front ++ ' ' :: '(' :: inside).head? == some '(') = false := by
      cases front with
      | nil => rfl
      | cons d front => simpa using fun same : d = '(' => opens.2 (same ▸ List.mem_cons_self)
    rw [List.cons_append, splitTyped?, first, other, ih line.2 opens.2]
    rfl

end Text

namespace IsName

theorem isBlank_of_isNameChar {c : Char} (h : Wrapped.isNameChar c = true) : isBlank c = false := by
  have apart : ∀ n ∈ blankRanges.codes, Wrapped.isNameChar (Char.ofNat n) = false := by
    decide +kernel
  refine Bool.eq_false_iff.mpr fun blank => ?_
  have other := apart c.toNat (CodeRanges.mem_codes blank)
  rw [Char.ofNat_toNat, h] at other
  cases other

theorem ne_nil {name : Text} (h : IsName name) : name ≠ [] := by
  obtain ⟨stars, word, rfl, -, nonempty, -⟩ := h
  simp [nonempty]

theorem eq_star_or_isNameChar {name : Text} (h : IsName name) {c : Char} (member : c ∈ name) :
    c = '*' ∨ Wrapped.isNameChar c = true := by
  obtain ⟨stars, word, rfl, -, -, characters⟩ := h
  rcases List.mem_append.mp member with star | inWord
  · exact Or.inl (List.eq_of_mem_replicate star)
  · exact Or.inr (characters c inWord)

theorem isBlank_eq_false {name : Text} (h : IsName name) {c : Char} (member : c ∈ name) :
    isBlank c = false := by
  rcases h.eq_star_or_isNameChar member with rfl | character
  · decide
  · exact isBlank_of_isNameChar character

theorem not_mem {name : Text} (h : IsName name) {c : Char} (star : c ≠ '*')
    (other : Wrapped.isNameChar c = false) : c ∉ name := by
  intro member
  rcases h.eq_star_or_isNameChar member with same | character
  · exact star same
  · rw [other] at character
    cases character

theorem margin_append {name : Text} (h : IsName name) (rest : Text) :
    (name ++ rest).margin = [] := by
  obtain ⟨c, tail, rfl⟩ := List.exists_cons_of_ne_nil h.ne_nil
  exact margin_cons_of_content (h.isBlank_eq_false List.mem_cons_self) _

theorem trim_eq_self {name : Text} (h : IsName name) : name.trim = name := by
  have starts := h.margin_append []
  rw [List.append_nil] at starts
  refine Text.trim_eq_self starts (trimEnd_eq_self_iff.mpr fun c last => ?_)
  exact h.isBlank_eq_false (List.mem_of_getLast? last)

end IsName

def typedHead (name lead type trail : Text) : Text :=
  name ++ ' ' :: '(' :: (lead ++ (type ++ (trail ++ [')'])))

section Header

variable {name lead type trail : Text} (isName : IsName name)

include isName

theorem trim_typedHead : (typedHead name lead type trail).trim = typedHead name lead type trail := by
  refine trim_eq_self (isName.margin_append _) ?_
  have ends : typedHead name lead type trail =
      (name ++ ' ' :: '(' :: (lead ++ (type ++ trail))) ++ [')'] := by simp [typedHead]
  rw [ends]
  exact trimEnd_append_of_content (by decide) _

variable (front : Wrapped.IsGap lead) (back : Wrapped.IsGap trail)

include front back

theorem not_mem_typedHead {c : Char} (content : isBlank c = false) (star : c ≠ '*')
    (other : Wrapped.isNameChar c = false) (absent : c ∉ type) (opening : c ≠ '(')
    (closing : c ≠ ')') : c ∉ typedHead name lead type trail := by
  have space : c ≠ ' ' := by
    rintro rfl
    cases content
  simp [typedHead, isName.not_mem star other, front.isMargin.not_mem content, absent, back.isMargin.not_mem content, space, opening,
    closing]

variable (regular : IsTypeText type)

include regular

theorem headAndText_typedHead {margin : Text} (blank : margin.IsMargin) :
    Field.headAndText (margin ++ typedHead name lead type trail ++ [':']) =
      (typedHead name lead type trail, []) := by
  have colon : ':' ∉ margin ++ typedHead name lead type trail := by
    rw [List.mem_append, not_or]
    exact ⟨blank.not_mem (by decide), not_mem_typedHead isName front back (by decide) (by decide)
      (by decide) (fun member => (regular.plain _ member).2.2.1 rfl) (by decide) (by decide)⟩
  have tick : backtick ∉ margin ++ typedHead name lead type trail := by
    rw [List.mem_append, not_or]
    exact ⟨blank.not_mem (by decide), not_mem_typedHead isName front back (by decide) (by decide)
      (by decide) (fun member => (regular.plain _ member).2.2.2.1 rfl) (by decide) (by decide)⟩
  rw [Field.headAndText, splitColon?_append colon tick (by simp), trim_append blank,
    trim_typedHead isName]
  rfl

theorem splitTyped?_typedHead :
    (typedHead name lead type trail).splitTyped? = some (name ++ [' '], type) := by
  have inside : trimStart (lead ++ (type ++ (trail ++ [')']))) = type ++ (trail ++ [')']) := by
    rw [trimStart_append front.isMargin]
    exact trimStart_eq_self (margin_append_of_nonempty regular.margin_eq_nil regular.nonempty _)
  refine splitTyped?_append (isName.not_mem (by decide) (by decide))
    (isName.not_mem (by decide) (by decide)) ?_
  rw [inside]
  exact closedPiece?_append regular.nonempty (trimEnd_of_trim_eq regular.trimmed)
    (fun member => (regular.plain _ member).2.2.2.2 rfl) back.isMargin

theorem nameAndType_typedHead {style : EntryStyle} (typed : style.typed = true) :
    Field.nameAndType style (typedHead name lead type trail) = (name, type) := by
  have single : IsMargin [' '] := isMargin_spaces 1
  have trimmed : trim (name ++ [' ']) = name := by
    rw [trim_append_blanks single, isName.trim_eq_self]
  have nonempty : type.isEmpty = false := by simpa using regular.nonempty
  simp [Field.nameAndType, typed, splitTyped?_typedHead isName front back regular, trimmed, nonempty]

end Header

end DocMarkup
