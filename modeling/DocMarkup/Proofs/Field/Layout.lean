import DocMarkup.Field.Markup
import DocMarkup.Proofs.Field.Fragment

namespace DocMarkup

open Text

/-- A type with regular spacing: one space behind every comma, and every other blank a single space
with no point beside it. -/
structure IsTypeText (type : Text) : Prop where
  nonempty : type ≠ []
  trimmed : type.trim = type
  plain : ∀ c ∈ type, c ≠ '(' ∧ c ≠ ')' ∧ c ≠ ':' ∧ c ≠ backtick ∧ c ≠ '\n'
  comma : ∀ before after, type = before ++ ',' :: after →
    (∀ a ∈ before.getLast?, isBlank a = false) ∧
      after.head? = some ' ' ∧ ∃ c ∈ after.tail.head?, isBlank c = false
  space : ∀ before b after, type = before ++ b :: after → isBlank b = true →
    before.getLast? ≠ some ',' →
      b = ' ' ∧ (∃ a ∈ before.getLast?, isBlank a = false ∧ a ≠ '.') ∧
        ∃ c ∈ after.head?, isBlank c = false ∧ c ≠ '.'

def Text.cuts : Text → List (Text × Char × Text)
  | [] => []
  | c :: rest => ([], c, rest) :: (cuts rest).map fun (before, b, after) => (c :: before, b, after)

theorem Text.mem_cuts_iff {text before after : Text} {b : Char} :
    (before, b, after) ∈ cuts text ↔ text = before ++ b :: after := by
  induction text generalizing before with
  | nil => simp [cuts]
  | cons c rest ih =>
    cases before with
    | nil => simp [cuts, eq_comm]
    | cons d before =>
      simp [cuts, ih, and_comm, eq_comm]

def isRegularAt (before : Text) (b : Char) (after : Text) : Bool :=
  if b == ',' then
    before.getLast?.all (fun a => !isBlank a) && after.head? == some ' ' &&
      after.tail.head?.any (fun c => !isBlank c)
  else
    !isBlank b || before.getLast? == some ',' ||
      b == ' ' && before.getLast?.any (fun a => !isBlank a && a != '.') &&
        after.head?.any (fun c => !isBlank c && c != '.')

def isTypeText (type : Text) : Bool :=
  !type.isEmpty && type.trim == type &&
    type.all (fun c => c != '(' && c != ')' && c != ':' && c != backtick && c != '\n') &&
      type.cuts.all fun cut => isRegularAt cut.1 cut.2.1 cut.2.2

theorem isRegularAt_comma {before after : Text} :
    isRegularAt before ',' after = true ↔ (∀ a ∈ before.getLast?, isBlank a = false) ∧
      after.head? = some ' ' ∧ ∃ c ∈ after.tail.head?, isBlank c = false := by
  simp [isRegularAt, Option.all_eq_true, Option.any_eq_true, and_assoc]

theorem isRegularAt_blank {before after : Text} {b : Char} (blank : isBlank b = true) :
    isRegularAt before b after = true ↔ (before.getLast? ≠ some ',' →
      b = ' ' ∧ (∃ a ∈ before.getLast?, isBlank a = false ∧ a ≠ '.') ∧
        ∃ c ∈ after.head?, isBlank c = false ∧ c ≠ '.') := by
  have other : b ≠ ',' := by
    rintro rfl
    cases blank
  simp [isRegularAt, other, blank, Option.any_eq_true, and_assoc, Decidable.or_iff_not_imp_left]

theorem isTypeText_iff {type : Text} : isTypeText type = true ↔ IsTypeText type := by
  simp only [isTypeText, Bool.and_eq_true, List.all_eq_true]
  constructor
  · rintro ⟨⟨⟨nonempty, trimmed⟩, plain⟩, cuts⟩
    have regularAt : ∀ before b after, type = before ++ b :: after →
        isRegularAt before b after = true :=
      fun before b after same => cuts (before, b, after) (Text.mem_cuts_iff.mpr same)
    refine ⟨by simpa using nonempty, by simpa using trimmed, ?_, ?_, ?_⟩
    · intro c member
      simpa [and_assoc] using plain c member
    · exact fun before after same => isRegularAt_comma.mp (regularAt before ',' after same)
    · exact fun before b after same blank =>
        (isRegularAt_blank blank).mp (regularAt before b after same)
  · rintro ⟨nonempty, trimmed, plain, comma, space⟩
    refine ⟨⟨⟨by simpa using nonempty, by simpa using trimmed⟩, ?_⟩, ?_⟩
    · intro c member
      simpa [and_assoc] using plain c member
    · rintro ⟨before, b, after⟩ member
      have same := Text.mem_cuts_iff.mp member
      by_cases isComma : b = ','
      · subst isComma
        exact isRegularAt_comma.mpr (comma before after same)
      · by_cases blank : isBlank b = true
        · exact (isRegularAt_blank blank).mpr (space before b after same blank)
        · simp [isRegularAt, isComma, blank]

instance (type : Text) : Decidable (IsTypeText type) := decidable_of_iff _ isTypeText_iff

/-- `Layout rest piece below`: a type from `rest` on, with the parenthesis and the colon behind it,
is broken into `piece` and the pieces `below`. -/
inductive Layout : Text → Text → List Text → Prop
  | closed (rest : Text) : Layout rest (rest ++ "):") []
  | beforeClosing (rest : Text) : Layout rest rest ["):"]
  | atSpace {rest next : Text} {below : List Text} (piece : Text) :
      Layout rest next below → Layout (piece ++ ' ' :: rest) piece (next :: below)
  | behindPoint {rest next : Text} {below : List Text} (piece : Text) :
      Layout rest next below → Layout (piece ++ '.' :: rest) (piece ++ ['.']) (next :: below)
  | beforePoint {rest next : Text} {below : List Text} (piece : Text) :
      Layout ('.' :: rest) next below → Layout (piece ++ '.' :: rest) piece (next :: below)

theorem exists_concat_of_append {before piece start : Text} {a : Char}
    (h : before ++ piece = start ++ [a]) (nonempty : piece ≠ []) : ∃ inner, piece = inner ++ [a] := by
  rcases List.eq_nil_or_concat' piece with rfl | ⟨inner, b, rfl⟩
  · exact absurd rfl nonempty
  · rw [← List.append_assoc] at h
    obtain ⟨-, same⟩ := List.append_inj' h rfl
    exact ⟨inner, by rw [same]⟩

namespace IsTypeText

variable {type : Text} (regular : IsTypeText type)

include regular

theorem margin_eq_nil : type.margin = [] := margin_of_trim_eq regular.trimmed

theorem trimEnd_of_suffix {before rest : Text} (h : type = before ++ rest) :
    rest.trimEnd = rest :=
  trimEnd_of_append_right before (h ▸ trimEnd_of_trim_eq regular.trimmed)

theorem around_comma {before after : Text} (h : type = before ++ ',' :: after) :
    before.trimEnd = before ∧ ∃ c rest, after = ' ' :: c :: rest ∧ isBlank c = false := by
  obtain ⟨tight, space, c, next, content⟩ := regular.comma before after h
  obtain ⟨later, rfl⟩ := List.head?_eq_some_iff.mp space
  obtain ⟨rest, rfl⟩ := List.head?_eq_some_iff.mp next
  exact ⟨trimEnd_eq_self_iff.mpr tight, c, rest, rfl, content⟩

theorem around_blank {before rest : Text} {b : Char} (h : type = before ++ b :: rest)
    (blank : isBlank b = true) :
    ∃ start a c later, before = start ++ [a] ∧ b = ' ' ∧ rest = c :: later ∧
      isBlank a = false ∧ isBlank c = false ∧ (a = ',' ∨ a ≠ '.' ∧ c ≠ '.') := by
  by_cases behind : before.getLast? = some ','
  · obtain ⟨start, rfl⟩ := List.getLast?_eq_some_iff.mp behind
    obtain ⟨-, c, later, same, content⟩ := regular.around_comma (by rw [h, List.append_assoc]; rfl)
    obtain ⟨rfl, rfl⟩ := List.cons.inj same
    exact ⟨start, ',', c, later, rfl, rfl, rfl, by decide, content, Or.inl rfl⟩
  · obtain ⟨space, ⟨a, last, aContent, aPoint⟩, c, next, cContent, cPoint⟩ :=
      regular.space before b rest h blank behind
    obtain ⟨start, left⟩ := List.getLast?_eq_some_iff.mp last
    obtain ⟨later, right⟩ := List.head?_eq_some_iff.mp next
    exact ⟨start, a, c, later, left, space, right, aContent, cContent, Or.inr ⟨aPoint, cPoint⟩⟩

theorem margin_behind_point {before rest : Text} (h : type = before ++ '.' :: rest) :
    rest.margin = [] := by
  cases rest with
  | nil => rfl
  | cons b rest =>
    by_cases blank : isBlank b = true
    · have behind : type = (before ++ ['.']) ++ b :: rest := by simp [h]
      obtain ⟨start, a, _, _, left, -, -, -, -, apart⟩ := regular.around_blank behind blank
      obtain ⟨-, same⟩ := List.append_inj' left rfl
      obtain rfl := List.singleton_inj.mp same
      simp at apart
    · exact margin_cons_of_content (by simpa using blank) rest

theorem trim_or_comma_space {before piece rest : Text}
    (h : type = (before ++ piece) ++ '.' :: rest) (starts : piece.margin = [])
    (nonempty : piece.trim ≠ []) :
    piece.trim = piece ∨
      ∃ inner, piece = inner ++ [',', ' '] ∧ trim (inner ++ [',', ' ']) = inner ++ [','] := by
  rcases List.eq_nil_or_concat' piece with rfl | ⟨front, b, rfl⟩
  · exact absurd rfl nonempty
  · by_cases blank : isBlank b = true
    · have single : IsMargin [b] := fun c member => List.mem_singleton.mp member ▸ blank
      have trimmed := trim_append_blanks single front
      have last : type = (before ++ front) ++ b :: '.' :: rest := by simp [h]
      obtain ⟨start, a, _, _, left, rfl, right, -, -, apart⟩ := regular.around_blank last blank
      obtain ⟨rfl, -⟩ := List.cons.inj right
      have comma : a = ',' := by simpa using apart
      obtain ⟨inner, rfl⟩ := exists_concat_of_append (comma ▸ left)
        (fun empty => nonempty (by rw [trimmed, empty]; rfl))
      have kept : trim (inner ++ [',']) = inner ++ [','] :=
        trim_eq_self (margin_eq_nil_of_append starts) (trimEnd_append_of_content (by decide) inner)
      exact Or.inr ⟨inner, by simp, by simpa using trimmed.trans kept⟩
    · exact Or.inl (trim_eq_self starts (trimEnd_append_of_content (by simpa using blank) front))

end IsTypeText

namespace Layout

theorem piece_append {rest piece : Text} {below : List Text} (layout : Layout rest piece below) :
    ∃ tail, piece ++ tail = rest ++ "):" := by
  cases layout with
  | closed => exact ⟨[], by simp⟩
  | beforeClosing => exact ⟨"):", rfl⟩
  | @atSpace later => exact ⟨' ' :: later ++ "):", by simp⟩
  | @behindPoint later => exact ⟨later ++ "):", by simp⟩
  | @beforePoint later => exact ⟨'.' :: later ++ "):", by simp⟩

theorem margin_piece {rest piece : Text} {below : List Text} (layout : Layout rest piece below)
    (starts : rest.margin = []) : piece.margin = [] := by
  obtain ⟨tail, same⟩ := layout.piece_append
  have whole : (piece ++ tail).margin = [] := by
    rw [same]
    by_cases empty : rest = []
    · rw [empty]
      decide
    · exact margin_append_of_nonempty starts empty _
  exact margin_eq_nil_of_append whole

theorem exists_trim_piece {c : Char} {rest piece : Text} {below : List Text}
    (layout : Layout (c :: rest) piece below) (content : isBlank c = false)
    (nonempty : piece.trim ≠ []) : ∃ fragment, piece.trim = c :: fragment := by
  obtain ⟨tail, whole⟩ := layout.piece_append
  have starts := layout.margin_piece (margin_cons_of_content content rest)
  obtain ⟨blanks, trimmed, -⟩ := exists_trimEnd_append piece.trimStart
  change piece.trim ++ blanks = piece.trimStart at trimmed
  rw [trimStart_eq_self starts] at trimmed
  obtain ⟨d, fragment, first⟩ := List.exists_cons_of_ne_nil nonempty
  rw [← trimmed, first] at whole
  simp only [List.cons_append, List.cons.injEq] at whole
  exact ⟨fragment, whole.1 ▸ first⟩

end Layout

def GluesTo (rest piece : Text) (below : List Text) : Prop :=
  ∃ gap, Wrapped.IsGap gap ∧ ∀ start : Text,
    Wrapped.spaceCommas ((below.map Text.trim).foldl Wrapped.glue (start ++ piece.trim)) =
      Wrapped.spaceCommas (start ++ rest ++ gap ++ "):")

namespace GluesTo

theorem closed {rest : Text} (whole : (rest ++ "):").trim = rest ++ "):") :
    GluesTo rest (rest ++ "):") [] := by
  refine ⟨[], Or.inl rfl, fun start => ?_⟩
  rw [whole]
  simp

theorem beforeClosing {inner : Text} {a : Char} (whole : (inner ++ [a]).trim = inner ++ [a]) :
    GluesTo (inner ++ [a]) (inner ++ [a]) ["):"] := by
  have closing : Text.trim "):" = "):" := by decide
  unfold GluesTo
  simp only [List.map_cons, List.map_nil, List.foldl_cons, List.foldl_nil, whole, closing,
    ← List.append_assoc]
  by_cases point : a = '.'
  · refine ⟨[], Or.inl rfl, fun start => ?_⟩
    rw [point, Wrapped.glue_point_left]
    simp
  · refine ⟨[' '], Or.inr rfl, fun start => ?_⟩
    have glued := Wrapped.glue_space (c := ')') point (by decide) (start ++ inner) [':']
    refine (congrArg Wrapped.spaceCommas glued).trans ?_
    simp

variable {rest next : Text} {below : List Text}

theorem behindComma (behind : GluesTo rest next below) {inner : Text}
    (whole : (inner ++ [',']).trim = inner ++ [',']) :
    GluesTo (inner ++ [','] ++ ' ' :: rest) (inner ++ [',']) (next :: below) := by
  obtain ⟨gap, isGap, joined⟩ := behind
  refine ⟨gap, isGap, fun start => ?_⟩
  rw [List.map_cons, List.foldl_cons, whole, ← List.append_assoc]
  obtain ⟨between, isBetween, glued⟩ := Wrapped.exists_glue (start ++ inner ++ [',']) next.trim
  rw [glued, joined]
  have spaced := Wrapped.spaceCommas_gap_behind isBetween (start ++ inner) (rest ++ gap ++ "):")
  simpa using spaced

theorem atSpace {c : Char} (behind : GluesTo (c :: rest) next below) {inner fragment : Text}
    {a : Char} (whole : (inner ++ [a]).trim = inner ++ [a]) (first : next.trim = c :: fragment)
    (left : a ≠ '.') (right : c ≠ '.') :
    GluesTo (inner ++ [a] ++ ' ' :: c :: rest) (inner ++ [a]) (next :: below) := by
  obtain ⟨gap, isGap, joined⟩ := behind
  refine ⟨gap, isGap, fun start => ?_⟩
  have tail := joined (start ++ inner ++ [a] ++ [' '])
  rw [first] at tail
  rw [List.map_cons, List.foldl_cons, whole, ← List.append_assoc, first,
    Wrapped.glue_space left right]
  simpa using tail

theorem behindPoint (behind : GluesTo rest next below) {piece : Text}
    (whole : (piece ++ ['.']).trim = piece ++ ['.']) :
    GluesTo (piece ++ '.' :: rest) (piece ++ ['.']) (next :: below) := by
  obtain ⟨gap, isGap, joined⟩ := behind
  refine ⟨gap, isGap, fun start => ?_⟩
  rw [List.map_cons, List.foldl_cons, whole, ← List.append_assoc, Wrapped.glue_point_left, joined]
  simp

theorem beforePoint (behind : GluesTo ('.' :: rest) next below) {piece fragment : Text}
    (first : next.trim = '.' :: fragment)
    (front : piece.trim = piece ∨
      ∃ inner, piece = inner ++ [',', ' '] ∧ trim (inner ++ [',', ' ']) = inner ++ [',']) :
    GluesTo (piece ++ '.' :: rest) piece (next :: below) := by
  obtain ⟨gap, isGap, joined⟩ := behind
  refine ⟨gap, isGap, fun start => ?_⟩
  rw [List.map_cons, List.foldl_cons, first, Wrapped.glue_point_right, ← first, joined]
  rcases front with whole | ⟨inner, rfl, trimmed⟩
  · simp [whole]
  · have spaced := Wrapped.spaceCommas_space_behind (start ++ inner) ('.' :: rest ++ gap ++ "):")
    rw [trimmed]
    simpa using spaced.symm

end GluesTo

theorem Layout.gluesTo {type rest piece : Text} {below : List Text}
    (layout : Layout rest piece below) (regular : IsTypeText type) {before : Text}
    (suffix : type = before ++ rest) (starts : rest.margin = [])
    (content : ∀ p ∈ piece :: below, p.trim ≠ []) : GluesTo rest piece below := by
  induction layout generalizing before with
  | closed rest =>
    exact .closed (trim_eq_self ((Layout.closed rest).margin_piece starts)
      (trimEnd_append_of_nonempty (by decide) (by decide) rest))
  | beforeClosing rest =>
    have whole : rest.trim = rest := trim_eq_self starts (regular.trimEnd_of_suffix suffix)
    rcases List.eq_nil_or_concat' rest with rfl | ⟨inner, a, rfl⟩
    · exact absurd rfl (content _ List.mem_cons_self)
    · exact .beforeClosing whole
  | @atSpace rest next below piece layout ih =>
    have blank : type = (before ++ piece) ++ ' ' :: rest := by rw [suffix, List.append_assoc]
    obtain ⟨earlier, a, c, later, left, -, rfl, aContent, cContent, apart⟩ :=
      regular.around_blank blank (by decide)
    have nonempty : piece ≠ [] := by
      rintro rfl
      exact content [] List.mem_cons_self rfl
    obtain ⟨inner, rfl⟩ := exists_concat_of_append left nonempty
    have whole : (inner ++ [a]).trim = inner ++ [a] :=
      trim_eq_self ((Layout.atSpace _ layout).margin_piece starts)
        (trimEnd_append_of_content aContent inner)
    have later' : type = (before ++ (inner ++ [a]) ++ [' ']) ++ c :: later := by simp [blank]
    have behind := ih later' (margin_cons_of_content cContent later)
      (fun p member => content p (List.mem_cons_of_mem _ member))
    rcases apart with rfl | ⟨aPoint, cPoint⟩
    · exact behind.behindComma whole
    · obtain ⟨fragment, first⟩ := layout.exists_trim_piece cContent (content next (by simp))
      exact behind.atSpace whole first aPoint cPoint
  | @behindPoint rest next below piece layout ih =>
    have point : type = (before ++ piece) ++ '.' :: rest := by rw [suffix, List.append_assoc]
    have later : type = (before ++ piece ++ ['.']) ++ rest := by simp [point]
    have behind := ih later (regular.margin_behind_point point)
      (fun p member => content p (List.mem_cons_of_mem _ member))
    exact behind.behindPoint (trim_eq_self ((Layout.behindPoint _ layout).margin_piece starts)
      (trimEnd_append_of_content (by decide) piece))
  | @beforePoint rest next below piece layout ih =>
    have point : type = (before ++ piece) ++ '.' :: rest := by rw [suffix, List.append_assoc]
    obtain ⟨fragment, first⟩ := layout.exists_trim_piece (by decide) (content next (by simp))
    have behind := ih point (margin_cons_of_content (by decide) rest)
      (fun p member => content p (List.mem_cons_of_mem _ member))
    exact behind.beforePoint first (regular.trim_or_comma_space point
      ((Layout.beforePoint _ layout).margin_piece starts) (content piece List.mem_cons_self))

end DocMarkup
