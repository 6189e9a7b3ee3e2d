import DocMarkup.Field.Basic
import DocMarkup.Proofs.Text.Trim
import DocMarkup.Section.Basic

namespace DocMarkup

namespace Text

def ink (text : Text) : Text := text.filter fun c => !isBlank c

@[simp]
theorem ink_nil : ink [] = [] := rfl

theorem ink_append (front rest : Text) : ink (front ++ rest) = ink front ++ ink rest :=
  List.filter_append _ _

theorem ink_cons {c : Char} (content : isBlank c = false) (text : Text) :
    ink (c :: text) = c :: ink text :=
  List.filter_cons_of_pos (by rw [content]; rfl)

theorem ink_eq_nil_iff {text : Text} : ink text = [] ↔ text.IsMargin := by
  simp [ink, IsMargin]

theorem ink_trimEnd (text : Text) : text.trimEnd.ink = text.ink := by
  obtain ⟨blanks, eq, blank⟩ := exists_trimEnd_append text
  have parts := congrArg ink eq
  rwa [ink_append, ink_eq_nil_iff.mpr blank, List.append_nil] at parts

@[simp]
theorem ink_trim (text : Text) : text.trim.ink = text.ink := by
  have parts := congrArg ink (margin_append_trimStart text)
  rwa [ink_append, ink_eq_nil_iff.mpr (isMargin_margin text), List.nil_append,
    ← ink_trimEnd text.trimStart] at parts

theorem eq_nil_of_isMargin {text : Text} (ends : text.trimEnd = text) (blank : text.IsMargin) :
    text = [] := by
  rw [← ends]
  exact trimEnd_append blank []

end Text

theorem Piece.splitFrom_append {afterColon : Bool} {pieces : List Piece} {before after : Text}
    (cut : splitFrom afterColon pieces = some (before, after)) :
    before ++ ':' :: after = textOf pieces := by
  induction pieces generalizing afterColon before with
  | nil => cases cut
  | cons piece rest ih =>
    rw [splitFrom] at cut
    split at cut
    · rename_i single
      cases cut
      rw [Bool.and_eq_true, Bool.and_eq_true] at single
      have colon : piece = .plain ':' := by
        have colon := single.1.1
        unfold isColon at colon
        split at colon
        · rfl
        · cases colon
      rw [colon]
      rfl
    · obtain ⟨⟨start, behind⟩, found, same⟩ := Option.map_eq_some_iff.mp cut
      cases same
      rw [List.append_assoc, ih found]
      rfl

namespace Text

theorem splitColon?_parts {line before after : Text}
    (cut : line.splitColon? = some (before, after)) :
    ∃ front rest : Text, front ++ ':' :: rest = line ∧ front.trim = before ∧ rest.trim = after := by
  obtain ⟨⟨front, rest⟩, found, same⟩ := Option.map_eq_some_iff.mp cut
  cases same
  have whole := Piece.splitFrom_append found
  rw [Markup.textOf_pieces] at whole
  exact ⟨front, rest, whole, rfl, rfl⟩

theorem ink_splitColon? {line before after : Text} (cut : line.splitColon? = some (before, after)) :
    line.ink = before.ink ++ ':' :: after.ink := by
  obtain ⟨front, rest, rfl, rfl, rfl⟩ := splitColon?_parts cut
  rw [ink_append, ink_cons (by decide), ink_trim, ink_trim]

theorem closedPiece?_ne_none {before : Text} (line : '\n' ∉ before) (content : ¬ before.IsMargin)
    (rest : Text) : closedPiece? (before ++ ')' :: rest) ≠ none := by
  induction before with
  | nil => exact absurd (fun _ member => absurd member List.not_mem_nil) content
  | cons c before ih =>
    rw [List.mem_cons, not_or] at line
    have notFeed : (c == '\n') = false := beq_eq_false_iff_ne.mpr (Ne.symm line.1)
    rw [List.cons_append, closedPiece?, notFeed]
    by_cases blank : IsMargin before
    · have first : isBlank c = false := by
        rw [Bool.eq_false_iff]
        exact fun same => content (List.forall_mem_cons.mpr ⟨same, blank⟩)
      have closes : trimStart (before ++ ')' :: rest) = ')' :: rest := by
        rw [trimStart_append blank]
        exact trimStart_eq_self (margin_cons_of_content (by decide) rest)
      rw [first, closes]
      cases closedPiece? (before ++ ')' :: rest) <;> simp
    · obtain ⟨piece, found⟩ := Option.ne_none_iff_exists'.mp (ih line.2 blank)
      rw [found]
      simp

theorem not_mem_of_closedPiece?_eq_none {before rest : Text} (line : '\n' ∉ before ++ ')' :: rest)
    (none : closedPiece? (before ++ ')' :: rest) = none) : ')' ∉ rest := by
  intro member
  -- Another closing parenthesis would end a piece with the first one in it.
  obtain ⟨between, after, rfl⟩ := List.append_of_mem member
  have whole : before ++ ')' :: (between ++ ')' :: after) =
      (before ++ ')' :: between) ++ ')' :: after := by
    rw [List.append_assoc, List.cons_append]
  rw [whole] at line none
  have content : ¬ IsMargin (before ++ ')' :: between) := by
    intro blank
    exact blank.not_mem (by decide) (List.mem_append_right _ List.mem_cons_self)
  have front : '\n' ∉ before ++ ')' :: between := fun inside =>
    line (List.mem_append_left _ inside)
  exact closedPiece?_ne_none front content after none

theorem closedPiece?_parts {text piece : Text} (found : closedPiece? text = some piece) :
    ∃ gap rest, text = piece ++ (gap ++ ')' :: rest) ∧ gap.IsMargin ∧ piece ≠ [] ∧
      ('\n' ∉ text → ')' ∉ rest) := by
  induction text generalizing piece with
  | nil => cases found
  | cons c tail ih =>
    rw [closedPiece?] at found
    split at found
    · cases found
    split at found
    · rename_i inner behind
      cases found
      obtain ⟨gap, rest, rfl, blank, -, last⟩ := ih behind
      refine ⟨gap, rest, rfl, blank, List.cons_ne_nil _ _, fun line => last ?_⟩
      exact fun member => line (List.mem_cons_of_mem _ member)
    · rename_i longest
      rw [Option.ite_none_right_eq_some, Bool.and_eq_true] at found
      obtain ⟨⟨-, closes⟩, same⟩ := found
      cases same
      obtain ⟨rest, closed⟩ := List.head?_eq_some_iff.mp (beq_iff_eq.mp closes)
      have parts := margin_append_trimStart tail
      rw [closed] at parts
      refine ⟨margin tail, rest, by rw [parts]; rfl, isMargin_margin tail, List.cons_ne_nil _ _,
        fun line => ?_⟩
      rw [List.mem_cons, not_or, ← parts] at line
      rw [← parts] at longest
      exact not_mem_of_closedPiece?_eq_none line.2 longest

def behindType (head : Text) : Text :=
  match head.splitTyped? with
  | some (name, type) =>
    (trimStart ((trimStart (head.drop (name.length + 1))).drop type.length)).tail
  | none => []

theorem splitTyped?_parts {head name type : Text} (found : head.splitTyped? = some (name, type)) :
    ∃ inside : Text, head = name ++ '(' :: inside ∧ closedPiece? inside.trimStart = some type := by
  induction head generalizing name with
  | nil => cases found
  | cons c tail ih =>
    rw [splitTyped?] at found
    split at found
    · cases found
    simp only at found
    split at found
    · rename_i type' closed
      cases found
      rw [Option.ite_none_right_eq_some] at closed
      obtain ⟨inside, rfl⟩ := List.head?_eq_some_iff.mp (beq_iff_eq.mp closed.1)
      exact ⟨inside, rfl, closed.2⟩
    · obtain ⟨⟨start, type'⟩, behind, same⟩ := Option.map_eq_some_iff.mp found
      cases same
      obtain ⟨inside, rfl, closed⟩ := ih behind
      exact ⟨inside, rfl, closed⟩

theorem behindType_parts {head name type : Text} (found : head.splitTyped? = some (name, type)) :
    ∃ lead gap : Text,
      head = name ++ '(' :: (lead ++ (type ++ (gap ++ ')' :: head.behindType))) ∧ lead.IsMargin ∧
      gap.IsMargin ∧ type ≠ [] ∧ ('\n' ∉ head → ')' ∉ head.behindType) := by
  obtain ⟨inside, whole, closed⟩ := splitTyped?_parts found
  obtain ⟨gap, rest, parts, blank, nonempty, last⟩ := closedPiece?_parts closed
  have behind : head.behindType = rest := by
    have front : head.drop (name.length + 1) = inside := by
      rw [whole, ← List.drop_drop, List.drop_left]
      rfl
    rw [behindType, found]
    simp only
    rw [front, parts, List.drop_left, trimStart_append blank,
      trimStart_eq_self (margin_cons_of_content (by decide) rest)]
    rfl
  have line (within : '\n' ∉ head) : '\n' ∉ inside.trimStart := by
    intro member
    apply within
    rw [whole]
    apply List.mem_append_right
    exact List.mem_cons_of_mem _ ((List.dropWhile_sublist _).subset member)
  rw [behind]
  refine ⟨margin inside, gap, ?_, isMargin_margin inside, blank, nonempty,
    fun within => last (line within)⟩
  rw [← parts, margin_append_trimStart, whole]

theorem ink_splitTyped? {head name type : Text} (found : head.splitTyped? = some (name, type)) :
    head.ink = name.ink ++ '(' :: (type.ink ++ ')' :: head.behindType.ink) := by
  obtain ⟨lead, gap, whole, before, after, -, -⟩ := behindType_parts found
  have parts := congrArg ink whole
  rwa [ink_append, ink_cons (by decide), ink_append, ink_append, ink_append, ink_cons (by decide),
    ink_eq_nil_iff.mpr before, ink_eq_nil_iff.mpr after, List.nil_append, List.nil_append] at parts

theorem trimEnd_behindType {head : Text} (ends : head.trimEnd = head) :
    head.behindType.trimEnd = head.behindType := by
  cases found : head.splitTyped? with
  | none =>
    rw [behindType, found]
    rfl
  | some parts =>
    obtain ⟨lead, gap, whole, -⟩ := behindType_parts found
    have front : head = (parts.1 ++ '(' :: (lead ++ (parts.2 ++ (gap ++ [')'])))) ++
        head.behindType := by
      simpa using whole
    rw [front] at ends
    exact trimEnd_of_append_right _ ends

theorem behindType_eq_nil_iff {head : Text} (line : '\n' ∉ head) :
    head.behindType = [] ↔ head.splitTyped? = none ∨ head.getLast? = some ')' := by
  cases found : head.splitTyped? with
  | none => simp [behindType, found]
  | some parts =>
    obtain ⟨lead, gap, whole, -, -, -, last⟩ := behindType_parts found
    have ends : head.getLast? = (')' :: head.behindType).getLast? := by
      have front : head = (parts.1 ++ '(' :: (lead ++ (parts.2 ++ gap))) ++
          (')' :: head.behindType) := by
        simpa using whole
      rw [congrArg List.getLast? front, List.getLast?_append]
      rfl
    rw [ends]
    constructor
    · intro empty
      rw [empty]
      exact Or.inr rfl
    · rintro (absurd | closes)
      · cases absurd
      · by_contra nonempty
        rw [List.getLast?_cons_of_ne_nil nonempty] at closes
        exact last line (List.mem_of_getLast? closes)

end Text

namespace Field

structure HeaderParts where
  name : Text
  type : Text
  rest : Text
  text : Text
  enclosed : Bool
  colon : Bool

namespace HeaderParts

/-- The name and the type as they stand in the header, blanks aside. -/
def headInk (parts : HeaderParts) : Text :=
  parts.name.ink ++
    if parts.enclosed then '(' :: (parts.type.ink ++ [')']) else parts.type.ink

/-- The text with its colon, blanks aside. -/
def textInk (parts : HeaderParts) : Text :=
  (if parts.colon then [':'] else []) ++ parts.text.ink

end HeaderParts

def headerParts (style : EntryStyle) (header : Text) : HeaderParts :=
  let (head, text) := headAndText header
  let (name, type) := nameAndType style head
  { name
    type
    rest := head.behindType
    text
    enclosed := head.splitTyped?.isSome
    colon := header.splitColon?.isSome }

theorem ink_nameAndType {style : EntryStyle} (typed : style.typed = true) (head : Text) :
    head.ink = (nameAndType style head).1.ink ++
      (if head.splitTyped?.isSome then '(' :: ((nameAndType style head).2.ink ++ [')'])
        else (nameAndType style head).2.ink) ++ head.behindType.ink := by
  cases found : head.splitTyped? with
  | none =>
    have rest : head.behindType = [] := by
      rw [Text.behindType, found]
    have alone : nameAndType style head = if style.prefersType then ([], head) else (head, []) := by
      simp [nameAndType, typed, found]
    rw [alone, rest]
    cases style.prefersType <;> simp
  | some parts =>
    obtain ⟨-, -, -, -, -, nonempty, -⟩ := Text.behindType_parts found
    have both : nameAndType style head = (parts.1.trim, parts.2) := by
      simp [nameAndType, typed, found, nonempty]
    rw [both, Text.ink_splitTyped? found]
    simp

theorem ink_headAndText (header : Text) :
    header.ink = (headAndText header).1.ink ++
      ((if header.splitColon?.isSome then [':'] else []) ++ (headAndText header).2.ink) := by
  unfold headAndText
  cases cut : header.splitColon? with
  | none => simp
  | some parts => simp [Text.ink_splitColon? cut]

theorem exists_trim_eq_head (header : Text) :
    ∃ front rest, front ++ rest = header ∧ (headAndText header).1 = front.trim := by
  unfold headAndText
  cases cut : header.splitColon? with
  | none => exact ⟨header, [], List.append_nil _, rfl⟩
  | some parts =>
    obtain ⟨front, rest, whole, head, -⟩ := Text.splitColon?_parts cut
    exact ⟨front, ':' :: rest, whole, head.symm⟩

theorem trimEnd_head (header : Text) :
    (headAndText header).1.trimEnd = (headAndText header).1 := by
  obtain ⟨front, -, -, head⟩ := exists_trim_eq_head header
  rw [head]
  exact Text.trimEnd_trimEnd _

theorem mem_header_of_mem_head {header : Text} {c : Char} (member : c ∈ (headAndText header).1) :
    c ∈ header := by
  obtain ⟨front, rest, rfl, head⟩ := exists_trim_eq_head header
  rw [head] at member
  apply List.mem_append_left
  exact Text.mem_of_mem_trimEnd ((Text.trim_suffix_trimEnd front).subset member)

/-- A header that is read for a name and a type gives all its characters to the field, blanks aside
and in their order, but for those behind the parenthesis that closes the type. So a header on a
single line loses nothing just if its head, up to the colon, has no type or ends with a closing
parenthesis. -/
theorem ofEntry_header {style : EntryStyle} (typed : style.typed = true) (typeMarkup : TypeMarkup)
    (describe : Block → Block) (entry : Entry) :
    let parts := headerParts style entry.header
    ofEntry typeMarkup describe style entry =
        { name := parts.name
          type := typeMarkup.render parts.type
          description := describe (parts.text :: Block.dedent entry.block) } ∧
      entry.header.ink = parts.headInk ++ parts.rest.ink ++ parts.textInk ∧
      (entry.header.ink = parts.headInk ++ parts.textInk ↔ parts.rest = []) ∧
      ('\n' ∉ entry.header → (parts.rest = [] ↔
        parts.enclosed = false ∨ (headAndText entry.header).1.getLast? = some ')')) := by
  intro parts
  have whole : entry.header.ink = parts.headInk ++ parts.rest.ink ++ parts.textInk := by
    rw [ink_headAndText, ink_nameAndType typed]
    rfl
  refine ⟨?_, whole, ?_, fun line => ?_⟩
  · simp only [ofEntry, typed, if_true]
    rfl
  · constructor
    · intro kept
      rw [kept, List.append_left_inj, List.self_eq_append_right] at whole
      have ends := Text.trimEnd_behindType (trimEnd_head entry.header)
      exact Text.eq_nil_of_isMargin ends (Text.ink_eq_nil_iff.mp whole)
    · intro empty
      rw [whole, empty, Text.ink_nil, List.append_nil]
  · have within : '\n' ∉ (headAndText entry.header).1 := fun member =>
      line (mem_header_of_mem_head member)
    have enclosed : parts.enclosed = false ↔
        (headAndText entry.header).1.splitTyped? = none :=
      Option.isSome_eq_false_iff.trans Option.isNone_iff_eq_none
    rw [enclosed]
    exact Text.behindType_eq_nil_iff within

def sampleHeader : Text := "  sizes ( list of (int) ) : The sizes: one for each."

theorem ofEntry_sampleHeader :
    sampleHeader.ink = "sizes(listof(int)):Thesizes:oneforeach.".toList ∧
      sampleHeader.ink = (headerParts SectionContext.named sampleHeader).headInk ++
        (headerParts SectionContext.named sampleHeader).textInk := by
  have typed : SectionContext.named.typed = true := rfl
  obtain ⟨-, -, kept, -⟩ := ofEntry_header typed ⟨[], .qualified⟩ id ⟨sampleHeader, []⟩
  exact ⟨by decide +kernel, kept.mpr (by decide +kernel)⟩

/-- What stands between a type and the colon is lost. -/
theorem not_forall_ink_header :
    ¬ ∀ (style : EntryStyle) (header : Text), style.typed = true →
      header.ink = (headerParts style header).headInk ++ (headerParts style header).textInk := by
  intro kept
  have lost := kept SectionContext.named "a (int) extra: Desc." rfl
  revert lost
  decide +kernel

end Field

end DocMarkup
