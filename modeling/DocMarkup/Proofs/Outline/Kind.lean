import DocMarkup.Outline.Basic
import DocMarkup.Proofs.Text.Margin

namespace DocMarkup

namespace StatementKind

def BehindKeyword (keyword text rest : Text) : Prop :=
  ∃ blanks, text = keyword ++ blanks ++ rest ∧ blanks ≠ [] ∧ blanks.IsMargin

def BeginsWithName (name text : Text) : Prop :=
  isIdentifier name = true ∧ ∃ rest, text = name ++ rest ∧ ∀ c ∈ rest.head?, isWord c = false

def DefinesClass (name text : Text) : Prop :=
  ∃ rest, BehindKeyword "class" text rest ∧ BeginsWithName name rest

def DefinesFunction (name text : Text) : Prop :=
  ∃ plain rest, (plain = text ∨ BehindKeyword "async" text plain) ∧
    BehindKeyword "def" plain rest ∧ BeginsWithName name rest

theorem behindKeyword_of_afterKeyword? {keyword text rest : Text}
    (found : afterKeyword? keyword text = some rest) : BehindKeyword keyword text rest := by
  unfold afterKeyword? at found
  split at found
  · rename_i c behind after
    split at found
    · rename_i blank
      cases found
      refine ⟨c :: Text.margin behind, ?_, List.cons_ne_nil _ _, ?_⟩
      · rw [List.append_assoc, List.cons_append, Text.margin_append_trimStart]
        exact Text.after?_eq_some_iff.mp after
      · intro d member
        rcases List.mem_cons.mp member with rfl | member
        · exact blank
        · exact Text.isMargin_margin behind d member
    · contradiction
  · contradiction

theorem beginsWithName_of_leadingIdentifier? {text name : Text}
    (found : leadingIdentifier? text = some name) : BeginsWithName name text := by
  cases text with
  | nil => contradiction
  | cons c rest =>
    simp only [leadingIdentifier?] at found
    split at found
    · rename_i starts
      cases found
      refine ⟨?_, rest.dropWhile isWord, ?_, ?_⟩
      · rw [isIdentifier, starts, Bool.true_and]
        exact List.all_takeWhile
      · rw [List.cons_append, List.takeWhile_append_dropWhile]
      · intro d first
        have stops := List.head?_dropWhile_not isWord rest
        rw [first] at stops
        simpa using stops
    · contradiction

theorem definesClass_of_className? {text name : Text} (found : className? text = some name) :
    DefinesClass name text := by
  obtain ⟨rest, behind, named⟩ := Option.bind_eq_some_iff.mp found
  exact ⟨rest, behindKeyword_of_afterKeyword? behind, beginsWithName_of_leadingIdentifier? named⟩

theorem definesFunction_of_functionName? {text name : Text}
    (found : functionName? text = some name) : DefinesFunction name text := by
  obtain ⟨rest, behind, named⟩ := Option.bind_eq_some_iff.mp found
  refine ⟨_, rest, ?_, behindKeyword_of_afterKeyword? behind,
    beginsWithName_of_leadingIdentifier? named⟩
  cases plain : afterKeyword? "async" text with
  | none => exact Or.inl rfl
  | some plain => exact Or.inr (behindKeyword_of_afterKeyword? plain)

theorem ofText_cases (text : Text) :
    (∃ name, ofText text = classDef name ∧ DefinesClass name text) ∨
      (∃ name, ofText text = function name ∧ DefinesFunction name text) ∨
      ofText text = assignment (Assignment.targets text) ∨ ofText text = other := by
  unfold ofText
  cases named : className? text with
  | some name => exact Or.inl ⟨name, rfl, definesClass_of_className? named⟩
  | none =>
    right
    cases named : functionName? text with
    | some name => exact Or.inl ⟨name, rfl, definesFunction_of_functionName? named⟩
    | none =>
      right
      cases Assignment.targets text with
      | nil => exact Or.inr rfl
      | cons => exact Or.inl rfl

theorem definesClass_of_ofText {text name : Text} (kind : ofText text = classDef name) :
    DefinesClass name text := by
  rcases ofText_cases text with ⟨name, same, defines⟩ | ⟨_, same, -⟩ | same | same <;>
    rw [kind] at same <;> cases same
  exact defines

theorem definesFunction_of_ofText {text name : Text} (kind : ofText text = function name) :
    DefinesFunction name text := by
  rcases ofText_cases text with ⟨_, same, -⟩ | ⟨name, same, defines⟩ | same | same <;>
    rw [kind] at same <;> cases same
  exact defines

theorem targets_of_ofText {text : Text} {targets : List Text}
    (kind : ofText text = assignment targets) : Assignment.targets text = targets := by
  rcases ofText_cases text with ⟨_, same, -⟩ | ⟨_, same, -⟩ | same | same <;>
    rw [kind] at same <;> cases same
  rfl

end StatementKind

end DocMarkup
