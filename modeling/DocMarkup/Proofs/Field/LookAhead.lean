import DocMarkup.Field.Basic
import DocMarkup.Proofs.Text.Trim

namespace DocMarkup

def IsName (name : Text) : Prop :=
  ∃ stars word, name = List.replicate stars '*' ++ word ∧ stars ≤ 2 ∧ word ≠ [] ∧
    ∀ c ∈ word, Wrapped.isNameChar c = true

/-- Read by itself, the line is an entry's header with a name, a type and a colon. -/
def Text.IsTypedHeader (line : Text) : Prop :=
  ∃ head text name type, line.splitColon? = some (head, text) ∧
    head.splitTyped? = some (name, type) ∧ IsName name.trim

namespace Wrapped

theorem opens_of_isStart {line : Text} (h : isStart line = true) : '(' ∈ line := by
  simp only [isStart, Bool.and_eq_true, beq_iff_eq] at h
  have member := List.mem_of_mem_head? (Option.mem_def.mpr h.1.2)
  have inner := (List.dropWhile_sublist _).subset ((List.dropWhile_sublist _).subset member)
  have dropStar_subset : ∀ text : Text, dropStar text ⊆ text := by
    intro text
    unfold dropStar
    split
    · exact List.subset_cons_self _ _
    · exact List.Subset.refl _
  exact (List.dropWhile_sublist _).subset (dropStar_subset _ (dropStar_subset _ inner))

theorem closes_of_isEnd {line : Text} (h : isEnd line = true) : ')' ∈ line := by
  have suffix : ("):" : Text) <:+ line.trimEnd := List.isSuffixOf_iff_suffix.mp h
  exact Text.mem_of_mem_trimEnd (suffix.subset List.mem_cons_self)

/-- The line goes on with a header, and the header goes on behind it. -/
structure Continues (line : Text) : Prop where
  content : line.trim ≠ []
  whole : isStart line = false
  opens : isEnd line = false

structure Closes (line : Text) : Prop where
  content : line.trim ≠ []
  whole : isStart line = false
  closed : isEnd line = true

theorem continuation?_cons (bound : Nat) (line : Text) (rest : Block) :
    continuation? (bound + 1) (line :: rest) =
      if line.trim.isEmpty || isStart line then none
      else if isEnd line then some 1
      else (continuation? bound rest).map (· + 1) := rfl

theorem Continues.continuation? {line : Text} (h : Continues line) (bound : Nat) (rest : Block) :
    continuation? (bound + 1) (line :: rest) = (Wrapped.continuation? bound rest).map (· + 1) := by
  simp [continuation?_cons, h.content, h.whole, h.opens]

theorem Closes.continuation? {line : Text} (h : Closes line) (bound : Nat) (rest : Block) :
    continuation? (bound + 1) (line :: rest) = some 1 := by
  simp [continuation?_cons, h.content, h.whole, h.closed]

theorem continuation?_of_closes {before after : Block} {closing : Text} {bound : Nat}
    (between : ∀ line ∈ before, Continues line) (closes : Closes closing)
    (near : before.length < bound) :
    continuation? bound (before ++ closing :: after) = some (before.length + 1) := by
  induction before generalizing bound with
  | nil =>
    obtain ⟨bound, rfl⟩ := Nat.exists_eq_succ_of_ne_zero (Nat.ne_of_gt near)
    exact closes.continuation? bound after
  | cons line before ih =>
    obtain ⟨bound, rfl⟩ := Nat.exists_eq_succ_of_ne_zero (Nat.ne_of_gt (Nat.zero_lt_of_lt near))
    have rest := ih (fun other member => between other (List.mem_cons_of_mem _ member))
      (Nat.lt_of_succ_lt_succ near)
    rw [List.cons_append, (between line (by simp)).continuation? bound, rest]
    rfl

theorem exists_closes_of_continuation? {bound n : Nat} {lines : Block}
    (h : continuation? bound lines = some n) :
    ∃ before closing after, lines = before ++ closing :: after ∧ n = before.length + 1 ∧
      before.length < bound ∧ (∀ line ∈ before, Continues line) ∧ Closes closing := by
  induction bound generalizing lines n with
  | zero => cases h
  | succ bound ih =>
    cases lines with
    | nil => cases h
    | cons line rest =>
      rw [continuation?_cons] at h
      split at h
      · contradiction
      · rename_i content
        simp only [Bool.or_eq_true, List.isEmpty_iff, not_or, Bool.not_eq_true] at content
        split at h
        · rename_i ends
          cases h
          exact ⟨[], line, rest, rfl, rfl, Nat.succ_pos _, by simp, content.1, content.2, ends⟩
        · rename_i goes
          obtain ⟨m, found, rfl⟩ := Option.map_eq_some_iff.mp h
          obtain ⟨before, closing, after, rfl, rfl, near, between, closes⟩ := ih found
          refine ⟨line :: before, closing, after, rfl, rfl, Nat.succ_lt_succ near, ?_, closes⟩
          intro other member
          rcases List.mem_cons.mp member with rfl | member
          · exact ⟨content.1, content.2, by simpa using goes⟩
          · exact between other member

/-- A header is continued by the lines up to the first that closes it, if that one is near enough
and none of them is blank or a wrapped header. -/
theorem continuation?_eq_some_iff {bound n : Nat} {lines : Block} :
    continuation? bound lines = some n ↔
      ∃ before closing after, lines = before ++ closing :: after ∧ n = before.length + 1 ∧
        before.length < bound ∧ (∀ line ∈ before, Continues line) ∧ Closes closing := by
  constructor
  · exact exists_closes_of_continuation?
  · rintro ⟨before, closing, after, rfl, rfl, near, between, closes⟩
    exact continuation?_of_closes between closes near

/-- One line takes the place of the header and the `n` lines behind it. -/
def Replaces (bound : Nat) (header : Text) (rest : Block) (n : Nat) : Prop :=
  0 < n ∧ n ≤ rest.length ∧
    join bound (header :: rest) =
      (header.margin ++ joined (header :: rest.take n)) :: rest.drop n

theorem replaces_iff {bound : Nat} {header : Text} {rest : Block} {n : Nat} :
    Replaces bound header rest n ↔
      isStart header = true ∧ continuation? bound rest = some n := by
  constructor
  · rintro ⟨positive, le, same⟩
    have lengths := congrArg List.length same
    simp only [join, List.length_cons, List.length_drop] at lengths
    split at lengths
    · rename_i start
      split at lengths
      · rename_i m found
        obtain ⟨before, closing, after, rfl, rfl, -⟩ := exists_closes_of_continuation? found
        simp only [List.length_cons, List.length_drop, List.length_append] at lengths le
        have : before.length + 1 = n := by omega
        exact ⟨start, this ▸ found⟩
      · simp only [List.length_cons] at lengths
        omega
    · simp only [List.length_cons] at lengths
      omega
  · rintro ⟨start, found⟩
    obtain ⟨before, closing, after, rfl, rfl, -⟩ := exists_closes_of_continuation? found
    refine ⟨Nat.succ_pos _, by simp, ?_⟩
    simp only [join, start, found, ↓reduceIte]

/-- The lines begin with something else than the wrapped header: they are no part of its section,
or they begin another entry that is not indented deeper. -/
def BoundaryAt (scope : Scope) (header : Text) : Block → Prop
  | [] => False
  | line :: rest =>
    scope.endsAt (line :: rest) = true ∨ line.IsTypedHeader ∧ line.indent ≤ header.indent

/-- A wrapped header swallows the end of its section or the next entry exactly when such a boundary
stands in front of the first closing line or on it, that line is near enough, and no line up to it
is blank or a wrapped header. Nothing else in a boundary stops the header. -/
theorem replaces_across_boundary_iff (scope : Scope) (bound : Nat) (header : Text)
    (rest : Block) :
    (∃ n, Replaces bound header rest n ∧ ∃ j < n, BoundaryAt scope header (rest.drop j)) ↔
      isStart header = true ∧ ∃ before closing after, rest = before ++ closing :: after ∧
        before.length < bound ∧ (∀ line ∈ before, Continues line) ∧ Closes closing ∧
        ∃ j ≤ before.length, BoundaryAt scope header (rest.drop j) := by
  constructor
  · rintro ⟨n, replaces, j, lt, boundary⟩
    obtain ⟨start, found⟩ := replaces_iff.mp replaces
    obtain ⟨before, closing, after, same, rfl, near, between, closes⟩ :=
      continuation?_eq_some_iff.mp found
    exact ⟨start, before, closing, after, same, near, between, closes, j,
      Nat.le_of_lt_succ lt, boundary⟩
  · rintro ⟨start, before, closing, after, same, near, between, closes, j, le, boundary⟩
    refine ⟨before.length + 1, replaces_iff.mpr ⟨start, ?_⟩, j, Nat.lt_succ_of_le le, boundary⟩
    exact continuation?_eq_some_iff.mpr ⟨before, closing, after, same, rfl, near, between, closes⟩

/-- A header whose parenthesis stays open swallows the next entry of its section, and with it the
next section. -/
theorem not_forall_replaces_within_boundary :
    ¬ ∀ (scope : Scope) (bound : Nat) (header : Text) (rest : Block) (n : Nat),
      Replaces bound header rest n → ∀ j < n, ¬ BoundaryAt scope header (rest.drop j) := by
  intro within
  have found : continuation? 3 ["    b (int):", "        Desc."] = some 1 := by decide +kernel
  have replaces : Replaces 3 "    a (foo" ["    b (int):", "        Desc."] 1 :=
    replaces_iff.mpr ⟨by decide +kernel, found⟩
  refine within ⟨Registry.google, some 4⟩ 3 _ _ 1 replaces 0 Nat.zero_lt_one
    (Or.inr ⟨⟨"b (int)", [], "b ", "int", ?_, ?_, ?_⟩, ?_⟩)
  · decide +kernel
  · decide +kernel
  · exact ⟨0, "b", by decide +kernel, Nat.zero_le _, by decide,
      List.all_eq_true.mp (by decide +kernel)⟩
  · decide +kernel

end Wrapped

end DocMarkup
