import Mathlib.Data.List.Forall2
import DocMarkup.FieldList
import DocMarkup.Proofs.Text.Trim

namespace DocMarkup

theorem forall₂_map_of_forall {α β : Type} {related : α → β → Prop} {write : α → β} {list : List α}
    (each : ∀ a ∈ list, related a (write a)) : List.Forall₂ related list (list.map write) :=
  List.forall₂_map_right_iff.mpr (List.forall₂_same.mpr each)

namespace Text

def IsShifted (n : Nat) (line shown : Text) : Prop :=
  if line = [] then shown.IsMargin else shown = spaces n ++ line

theorem isShifted_padded (n : Nat) (line : Text) :
    IsShifted n line (if line.isEmpty then [] else spaces n ++ line) := by
  cases line with
  | nil => exact fun _ member => absurd member List.not_mem_nil
  | cons c line => rfl

theorem spaces_append_spaces (m n : Nat) (text : Text) :
    spaces m ++ (spaces n ++ text) = spaces (m + n) ++ text := by
  rw [← List.append_assoc, spaces, spaces, List.replicate_append_replicate, spaces]

theorem isShifted_padded_shifted (m n : Nat) (line : Text) :
    IsShifted (m + (n + 1)) line
      (if (spaces (n + 1) ++ line).isEmpty then []
        else spaces m ++ (spaces (n + 1) ++ line)) := by
  have filled : (spaces (n + 1) ++ line).isEmpty = false := rfl
  rw [filled, if_neg Bool.false_ne_true, spaces_append_spaces]
  cases line with
  | nil =>
    rw [List.append_nil]
    exact isMargin_spaces _
  | cons c line => rfl

end Text

namespace Description

open Text

/-- The lines `shown` are an entry's `own` text and the lines of its description, each once and in
order. All lines after the first are shifted by one width, whatever they hold. -/
inductive Shows (own : Text) : Block → Block → Prop
  | alone : Shows own [] [own.trimEnd]
  | beside {n : Nat} {first : Text} {rest shown : Block} (wide : 0 < n)
      (shifted : List.Forall₂ (IsShifted n) rest shown) :
      Shows own (first :: rest) ((own ++ first) :: shown)
  | below {m n : Nat} {first : Text} {gap rest shown : Block} (wide : 0 < n)
      (blank : ∀ line ∈ gap, line = []) (shifted : List.Forall₂ (IsShifted n) rest shown) :
      Shows own (first :: rest) (own.trimEnd :: gap ++ (spaces m ++ first) :: shown)

theorem place_cases (first : Text) (rest : Block) :
    place (first :: rest) = first :: rest ∨ place (first :: rest) = [] :: first :: rest ∨
      place (first :: rest) = [] :: first :: Block.shift 4 rest := by
  unfold place
  split
  · exact Or.inr (Or.inl rfl)
  · dsimp only
    split
    · exact Or.inl rfl
    · split
      · exact Or.inr (Or.inl rfl)
      · exact Or.inr (Or.inr rfl)

def padded (n : Nat) (lines : Block) : Block :=
  lines.map fun line => if line.isEmpty then [] else spaces n ++ line

theorem hang_cons (marker first : Text) (rest : Block) :
    hang marker (first :: rest) = (marker ++ first).trimEnd :: padded marker.length rest := rfl

theorem padded_of_blank (n : Nat) {gap : Block} (blank : ∀ line ∈ gap, line = []) :
    padded n gap = gap := by
  refine (List.map_congr_left fun line member => ?_).trans (List.map_id _)
  rw [blank line member]
  rfl

theorem padded_cons (n : Nat) {line : Text} (content : line ≠ []) (lines : Block) :
    padded n (line :: lines) = (spaces n ++ line) :: padded n lines := by
  have filled : ¬ line.isEmpty = true := by simpa using content
  rw [padded, List.map_cons, if_neg filled, padded]

theorem forall₂_padded (n : Nat) (lines : Block) :
    List.Forall₂ (IsShifted n) lines (padded n lines) :=
  forall₂_map_of_forall fun line _ => isShifted_padded n line

theorem forall₂_padded_shift (m n : Nat) (lines : Block) :
    List.Forall₂ (IsShifted (m + (n + 1))) lines (padded m (Block.shift (n + 1) lines)) := by
  rw [padded, Block.shift, List.map_map]
  exact forall₂_map_of_forall fun line _ => isShifted_padded_shifted m n line

section Hung

variable {lead first : Text} (wide : lead ≠ []) (content : first ≠ []) (rest : Block)

include wide content

theorem shows_hang_beside (trimmed : first.trimEnd = first) (title : Text) :
    Shows (lead ++ title) (first :: rest) (hang lead ((title ++ first) :: rest)) := by
  rw [hang_cons, ← List.append_assoc, trimEnd_append_of_nonempty trimmed content]
  exact Shows.beside (List.length_pos_iff.mpr wide) (forall₂_padded _ rest)

theorem shows_hang_below {gap : Block} (blank : ∀ line ∈ gap, line = []) {lines : Block}
    (placed : lines = rest ∨ lines = Block.shift 4 rest) (title : Text) :
    Shows (lead ++ title) (first :: rest) (hang lead (title :: gap ++ first :: lines)) := by
  have width : 0 < lead.length := List.length_pos_iff.mpr wide
  have shown : padded lead.length (gap ++ first :: lines) =
      gap ++ (spaces lead.length ++ first) :: padded lead.length lines := by
    have front : padded lead.length gap = gap := padded_of_blank _ blank
    rw [padded, List.map_append, ← padded, ← padded, front, padded_cons _ content]
  rw [List.cons_append, hang_cons, shown]
  rcases placed with rfl | rfl
  · exact Shows.below width blank (forall₂_padded _ _)
  · exact Shows.below (Nat.add_pos_left width _) blank (forall₂_padded_shift _ 3 _)

theorem shows_hang_place (trimmed : first.trimEnd = first) :
    Shows lead (first :: rest) (hang lead (place (first :: rest))) := by
  have noGap : ∀ line ∈ ([] : Block), line = [] := fun _ member => absurd member List.not_mem_nil
  have below : ∀ lines, lines = rest ∨ lines = Block.shift 4 rest →
      Shows lead (first :: rest) (hang lead ([] :: first :: lines)) := by
    intro lines placed
    have shown := shows_hang_below wide content rest noGap placed []
    rwa [List.append_nil] at shown
  rcases place_cases first rest with placed | placed | placed
  · rw [placed]
    have shown := shows_hang_beside wide content rest trimmed []
    rwa [List.append_nil] at shown
  · rw [placed]
    exact below rest (Or.inl rfl)
  · rw [placed]
    exact below _ (Or.inr rfl)

theorem shows_hang_summary {description : Block}
    (stripped : Block.stripBlanks description = first :: rest)
    (trimmed : first.trimEnd = first) (name type : Text) :
    Shows (lead ++ Field.title name type true) (first :: rest)
      (hang lead (Field.summary name type description)) := by
  have oneBlank : ∀ line ∈ ([[]] : Block), line = [] := fun _ => List.mem_singleton.mp
  have filled : ¬ first.isEmpty = true := by simpa using content
  rw [Field.summary, stripped]
  dsimp only
  rcases place_cases first rest with placed | placed | placed
  · rw [placed]
    dsimp only
    rw [if_neg filled]
    exact shows_hang_beside wide content rest trimmed _
  · rw [placed]
    exact shows_hang_below wide content rest oneBlank (Or.inl rfl) _
  · rw [placed]
    exact shows_hang_below wide content rest oneBlank (Or.inr rfl) _

end Hung

end Description

namespace FieldList

open Description

def leads (label : Text) : List Text :=
  let marker := ":" ++ label.trim ++ ":"
  [marker ++ " ", marker ++ " * ", Text.spaces marker.length ++ " * "]

/-- The entry of a field in a labelled list. -/
def IsLabelled (label : Text) (field : Field) (entry : Block) : Prop :=
  let lines := Block.stripBlanks field.description
  ∃ lead ∈ leads label,
    Shows (lead ++ Field.title field.name field.type (lines ≠ [])) lines entry

/-- The entry of a field in a list of roles: a type has a line of its own at the end. -/
def IsPair (role typeRole : Text) (field : Field) (entry : Block) : Prop :=
  ∃ shown,
    Shows (":" ++ role ++ " " ++ field.name ++ ":" ++ " ") (Block.stripBlanks field.description)
      shown ∧
    entry =
      if field.type.isEmpty then shown
      else shown ++ [":" ++ typeRole ++ " " ++ field.name ++ ": " ++ field.type]

theorem isLabelled_hang {label lead : Text} (member : lead ∈ leads label) {field : Field}
    (trimmed : ∀ line ∈ field.description, line.trimEnd = line) :
    IsLabelled label field (hang lead field.lines) := by
  have wide : lead ≠ [] := by
    intro empty
    subst empty
    simp [leads] at member
  refine ⟨lead, member, ?_⟩
  cases stripped : Block.stripBlanks field.description with
  | nil =>
    have alone : field.lines = [Field.title field.name field.type false] := by
      rw [Field.lines, Field.summary, stripped]
    rw [alone]
    exact Shows.alone
  | cons first rest =>
    have inside : first ∈ field.description :=
      Block.stripBlanks_subset _ (stripped ▸ List.mem_cons_self)
    exact shows_hang_summary wide (Block.head_stripBlanks_ne_nil stripped) rest stripped
      (trimmed first inside) field.name field.type

theorem isPair_pair (role typeRole : Text) {field : Field}
    (trimmed : ∀ line ∈ field.description, line.trimEnd = line) :
    IsPair role typeRole field (pair role typeRole field) := by
  refine ⟨_, ?_, rfl⟩
  cases stripped : Block.stripBlanks field.description with
  | nil =>
    have content : isBlank ':' = false := by decide
    have blank : isBlank ' ' = true := by decide
    have ends : ∀ front : Text, (front ++ ":" ++ " ").trimEnd = front ++ ":" := fun front =>
      (Text.trimEnd_append_of_blank blank _).trans (Text.trimEnd_append_of_content content front)
    have alone : ∀ own : Text, Shows own [] [own.trimEnd] := fun _ => Shows.alone
    have shown := alone (":" ++ role ++ " " ++ field.name ++ ":" ++ " ")
    rwa [ends] at shown
  | cons first rest =>
    have inside : first ∈ field.description :=
      Block.stripBlanks_subset _ (stripped ▸ List.mem_cons_self)
    exact shows_hang_place (List.cons_ne_nil _ _) (Block.head_stripBlanks_ne_nil stripped) rest
      (trimmed first inside)

theorem exists_closed_eq (lines : Block) :
    ∃ ending, closed lines = lines ++ ending ∧ (ending = [] ∨ ending = [[]]) := by
  unfold closed
  split
  · split
    · exact ⟨[], (List.append_nil lines).symm, Or.inl rfl⟩
    · exact ⟨[[]], rfl, Or.inr rfl⟩
  · exact ⟨[], (List.append_nil lines).symm, Or.inl rfl⟩

section Lists

variable {fields : List Field}
  (trimmed : ∀ field ∈ fields, ∀ line ∈ field.description, line.trimEnd = line)

include trimmed

theorem forall₂_isLabelled {label lead : Text} (member : lead ∈ leads label) :
    List.Forall₂ (IsLabelled label) fields (fields.map fun field => hang lead field.lines) :=
  forall₂_map_of_forall fun field inside => isLabelled_hang member (trimmed field inside)

theorem exists_bulleted_eq (label : Text) :
    ∃ entries, bulleted (":" ++ label.trim ++ ":") fields = entries.flatten ∧
      List.Forall₂ (IsLabelled label) fields entries := by
  cases fields with
  | nil => exact ⟨[], rfl, List.Forall₂.nil⟩
  | cons first rest =>
    let marker := ":" ++ label.trim ++ ":"
    have opening : marker ++ " * " ∈ leads label := List.mem_of_mem_tail List.mem_cons_self
    have later : Text.spaces marker.length ++ " * " ∈ leads label :=
      List.mem_of_mem_tail (List.mem_of_mem_tail List.mem_cons_self)
    have front := isLabelled_hang opening (trimmed first List.mem_cons_self)
    have below := forall₂_isLabelled
      (fun field inside => trimmed field (List.mem_cons_of_mem first inside)) later
    refine ⟨_, ?_, List.Forall₂.cons front below⟩
    rw [bulleted, List.flatten_cons, List.flatMap_def]

theorem exists_labelled_eq (label : Text) :
    ∃ entries ending, labelled label fields = entries.flatten ++ ending ∧
      (ending = [] ∨ ending = [[]]) ∧ List.Forall₂ (IsLabelled label) fields entries := by
  obtain ⟨entries, same, shown⟩ : ∃ entries : List Block,
      labelled label fields = closed entries.flatten ∧
        List.Forall₂ (IsLabelled label) fields entries := by
    obtain ⟨entries, same, shown⟩ := exists_bulleted_eq trimmed label
    match fields with
    | [] => exact ⟨entries, congrArg closed same, shown⟩
    | [field] =>
      have opening : ":" ++ label.trim ++ ":" ++ " " ∈ leads label := List.mem_cons_self
      have single := forall₂_isLabelled trimmed opening
      exact ⟨_, congrArg closed (List.append_nil _).symm, single⟩
    | first :: second :: rest => exact ⟨entries, congrArg closed same, shown⟩
  obtain ⟨ending, eq, blank⟩ := exists_closed_eq entries.flatten
  exact ⟨entries, ending, same.trans eq, blank, shown⟩

end Lists

/-- In a field list of either kind each field has an entry that shows its description, and nothing
but a blank line stands behind the entries. -/
theorem shows_descriptions (label role typeRole : Text) {fields : List Field}
    (trimmed : ∀ field ∈ fields, ∀ line ∈ field.description, line.trimEnd = line) :
    (∃ entries ending, labelled label fields = entries.flatten ++ ending ∧
      (ending = [] ∨ ending = [[]]) ∧ List.Forall₂ (IsLabelled label) fields entries) ∧
    ∃ entries, pairs role typeRole fields = entries.flatten ++ [[]] ∧
      List.Forall₂ (IsPair role typeRole) fields entries := by
  refine ⟨exists_labelled_eq trimmed label, fields.map (pair role typeRole), ?_, ?_⟩
  · rw [pairs, List.flatMap_def]
  · exact forall₂_map_of_forall fun field inside =>
      isPair_pair role typeRole (trimmed field inside)

def sampleFields : List Field :=
  [{ name := "x", type := "int", description := ["", "One of", "", "  - a", "    - b"] },
    { name := "y", type := [], description := ["Such as::", "f(", "", "  1)", ""] },
    { name := "z", type := "`T`", description := [] }]

theorem shows_sampleDescriptions :
    (∀ field ∈ sampleFields, ∀ line ∈ field.description, line.trimEnd = line) ∧
    (∃ entries ending, labelled "Params" sampleFields = entries.flatten ++ ending ∧
      (ending = [] ∨ ending = [[]]) ∧
      List.Forall₂ (IsLabelled "Params") sampleFields entries) ∧
    ∃ entries, pairs "param" "type" sampleFields = entries.flatten ++ [[]] ∧
      List.Forall₂ (IsPair "param" "type") sampleFields entries := by
  have trimmed : ∀ field ∈ sampleFields, ∀ line ∈ field.description, line.trimEnd = line := by
    decide +kernel
  exact ⟨trimmed, shows_descriptions "Params" "param" "type" trimmed⟩

example :
    labelled "Params"
        [{ name := "y", type := "int", description := ["", "Such as::", "f(", "", "  1)"] }] =
      [":Params: **y** (*int*) --",
        "",
        "         Such as::",
        "             f(",
        "             ",
        "               1)",
        ""] := by decide +kernel

end FieldList

end DocMarkup
