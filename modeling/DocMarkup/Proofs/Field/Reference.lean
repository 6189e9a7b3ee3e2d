import DocMarkup.FieldList
import DocMarkup.Proofs.Field.MarkupPattern

namespace DocMarkup

section Role

variable {role : Text} (isRole : role = [] ∨ isRole role = true)

include isRole

theorem isRoleChar_of_mem_role : ∀ c ∈ role, isRoleChar c = true := by
  rcases isRole with rfl | isRole
  · nofun
  · exact Markup.isRoleChar_of_mem_rolePattern (Markup.mem_language_rolePattern_iff.mpr isRole)

theorem takeWhile_role_append (rest : Text) :
    (role ++ backtick :: rest).takeWhile isRoleChar = role := by
  rw [List.takeWhile_append_of_pos (isRoleChar_of_mem_role isRole),
    List.takeWhile_cons_of_neg (by decide), List.append_nil]

theorem dropWhile_role_append (rest : Text) :
    (role ++ backtick :: rest).dropWhile isRoleChar = backtick :: rest := by
  rw [List.dropWhile_append_of_pos (isRoleChar_of_mem_role isRole),
    List.dropWhile_cons_of_neg (by decide)]

end Role

namespace FieldList

/-- A role or nothing, and `inner` on one line between two backticks. -/
def Framed (text inner : Text) : Prop :=
  ∃ role, (role = [] ∨ isRole role = true) ∧ text = role ++ (backtick :: inner ++ [backtick]) ∧
    inner ≠ [] ∧ '\n' ∉ inner

theorem target?_eq_some_iff {text inner : Text} :
    target? text = some inner ↔ Framed text inner := by
  constructor
  · intro found
    unfold target? at found
    dsimp only at found
    obtain ⟨form, same⟩ := Option.ite_none_right_eq_some.mp found
    simp only [Bool.and_eq_true, beq_iff_eq, Bool.or_eq_true, List.isEmpty_iff,
      Bool.not_eq_true', List.isEmpty_eq_false_iff] at form
    obtain ⟨⟨⟨⟨isRole, opens⟩, closes⟩, filled⟩, onLine⟩ := form
    obtain ⟨behind, quoted⟩ := List.head?_eq_some_iff.mp opens
    rw [quoted, List.tail_cons] at closes same filled onLine
    have ends : behind = inner ++ [backtick] := by
      rw [← Option.some.inj same, List.dropLast_append_getLast? _ closes]
    rw [Option.some.inj same] at filled onLine
    refine ⟨text.takeWhile isRoleChar, isRole, ?_, filled, by simpa using onLine⟩
    rw [List.cons_append, ← ends, ← quoted, List.takeWhile_append_dropWhile]
  · rintro ⟨role, isRole, rfl, filled, onLine⟩
    have isPlain : (role.isEmpty || DocMarkup.isRole role) = true := by
      rcases isRole with rfl | isRole
      · rfl
      · rw [isRole, Bool.or_true]
    unfold target?
    dsimp only
    rw [List.cons_append, takeWhile_role_append isRole, dropWhile_role_append isRole]
    simp [isPlain, filled, onLine]

end FieldList

end DocMarkup
