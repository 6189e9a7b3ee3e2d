import DocMarkup.Proofs.Outline.Kind
import DocMarkup.Proofs.Outline.Targets

namespace DocMarkup

theorem isBlank_of_isWord {c : Char} (word : isWord c = true) : isBlank c = false := by
  have apart : ∀ n ∈ blankRanges.codes, isWord (Char.ofNat n) = false := by decide +kernel
  rw [← Bool.not_eq_true]
  intro blank
  have other := apart c.toNat (CodeRanges.mem_codes blank)
  rw [Char.ofNat_toNat, word] at other
  cases other

theorem isWord_of_isBlank {c : Char} (blank : isBlank c = true) : isWord c = false := by
  rw [← Bool.not_eq_true]
  intro word
  rw [isBlank_of_isWord word] at blank
  cases blank

namespace StatementKind

section Target

variable {target : Text} (named : isIdentifier target.trim = true) (flush : target.margin = [])

include named flush

theorem afterKeyword?_target (keyword : Text) (letters : keyword.all isWord = true)
    (value : Text) :
    afterKeyword? keyword (target ++ '=' :: value) = none ∨
      afterKeyword? keyword (target ++ '=' :: value) = some ('=' :: value) := by
  obtain ⟨blanks, parts, blank⟩ := Text.exists_trimEnd_append target
  have name : ∀ c ∈ target.trimEnd, isWord c = true := by
    rw [Text.trim, Text.trimStart_eq_self flush] at named
    exact Assignment.isWord_of_isIdentifier named
  have noWord {c : Char} (blank : isBlank c = true) : ¬ isWord c = true := by
    rw [isWord_of_isBlank blank]
    decide
  unfold afterKeyword?
  split
  · rename_i c behind found
    by_cases first : isBlank c = true
    · -- The keyword is all that stands in front of the first blank, so it is the whole name.
      have same := congrArg (List.dropWhile isWord) (Text.after?_eq_some_iff.mp found)
      rw [← parts, List.append_assoc, List.dropWhile_append_of_pos name,
        List.dropWhile_append_of_pos (List.all_eq_true.mp letters),
        List.dropWhile_cons_of_neg (noWord first)] at same
      cases blanks with
      | nil =>
        rw [List.nil_append, List.dropWhile_cons_of_neg (by decide)] at same
        obtain ⟨rfl, -⟩ := List.cons.inj same
        cases first
      | cons d blanks =>
        have gap : Text.IsMargin blanks := fun e member => blank e (List.mem_cons_of_mem d member)
        have starts : Text.trimStart ('=' :: value) = '=' :: value :=
          Text.trimStart_eq_self (Text.margin_cons_of_content (by decide) value)
        have next := noWord (blank d List.mem_cons_self)
        rw [List.cons_append, List.dropWhile_cons_of_neg next] at same
        obtain ⟨-, rfl⟩ := List.cons.inj same
        right
        rw [if_pos first, Text.trimStart_append gap, starts]
    · left
      rw [if_neg first]
  · left
    rfl

theorem className?_target (value : Text) : className? (target ++ '=' :: value) = none := by
  unfold className?
  rcases afterKeyword?_target named flush "class" (by decide) value with same | same
  · rw [same]
    rfl
  · rw [same]
    rfl

theorem functionName?_target (value : Text) : functionName? (target ++ '=' :: value) = none := by
  unfold functionName?
  rcases afterKeyword?_target named flush "async" (by decide) value with same | same
  · rw [same, Option.getD_none]
    rcases afterKeyword?_target named flush "def" (by decide) value with same | same
    · rw [same]
      rfl
    · rw [same]
      rfl
  · rw [same]
    rfl

theorem ofText_target {value : Text} (bare : value.head? ≠ some '=') :
    ofText (target ++ '=' :: value) =
      .assignment (target.trim :: Assignment.targets value) := by
  have cut := Assignment.targets_of_cut (Assignment.cut?_of_isIdentifier named bare)
  rw [if_pos named] at cut
  rw [ofText, className?_target named flush, functionName?_target named flush, cut]

end Target

end StatementKind

namespace Assignment

/-- The text begins with these names, each with an equals sign behind it, and ends with the value. -/
inductive Gives (value : Text) : List Text → Text → Prop where
  | last {target : Text} : isIdentifier target.trim = true → value.head? ≠ some '=' →
      Gives value [target.trim] (target ++ '=' :: value)
  | more {target text : Text} {names : List Text} : isIdentifier target.trim = true →
      text.head? ≠ some '=' → Gives value names text →
      Gives value (target.trim :: names) (target ++ '=' :: text)

section Gives

variable {value text : Text} {names : List Text} (gives : Gives value names text)
  (whole : Assignment.split value = ([], value))

include gives

theorem Gives.ne_nil : names ≠ [] := by
  cases gives <;> exact List.cons_ne_nil _ _

include whole

theorem Gives.split : Assignment.split text = (names, value) := by
  induction gives with
  | last named bare => rw [split_of_cut (cut?_of_isIdentifier named bare), if_pos named, whole]
  | more named bare _ ih => rw [split_of_cut (cut?_of_isIdentifier named bare), if_pos named, ih]

theorem Gives.value? : Assignment.value? text = some value := by
  rw [Assignment.value?, targets, gives.split whole]
  simp [gives.ne_nil]

theorem Gives.ofText (flush : text.margin = []) :
    StatementKind.ofText text = .assignment names := by
  have all : Assignment.targets text = names := congrArg Prod.fst (gives.split whole)
  have kind : StatementKind.ofText text = .assignment (Assignment.targets text) := by
    cases gives with
    | last named bare | more named bare _ =>
      have cut := targets_of_cut (cut?_of_isIdentifier named bare)
      rw [if_pos named] at cut
      rw [StatementKind.ofText_target named (Text.margin_eq_nil_of_append flush) bare, cut]
  rw [kind, all]

end Gives

end Assignment

end DocMarkup
