import DocMarkup.Text.Basic
import DocMarkup.Text.Word

/-!
Inline markup inside a line: role references, literals, metadata fields and interpreted text. A line
is a row of pieces, each a span of markup or a single character outside all markup.
-/

namespace DocMarkup

def backtick : Char := '\x60'

def joinsRoleWords (c : Char) : Bool :=
  c == '-' || c == '_' || c == '+' || c == ':' || c == '.'

def isRoleChar (c : Char) : Bool := isAlphanumeric c || joinsRoleWords c

def isRoleNameFrom (inWord : Bool) : Text → Bool
  | [] => inWord
  | c :: rest =>
    if isAlphanumeric c then isRoleNameFrom true rest
    else inWord && joinsRoleWords c && isRoleNameFrom false rest

def isRoleName (name : Text) : Bool := isRoleNameFrom false name

def isRole : Text → Bool
  | ':' :: rest => rest.getLast? == some ':' && isRoleName rest.dropLast
  | _ => false

namespace Markup

abbrev Cut := Option (Text × Text)

def throughBacktick? (text : Text) : Cut :=
  let inner := text.takeWhile fun c => c != backtick && c != '\n'
  match text.dropWhile fun c => c != backtick && c != '\n' with
  | [] => none
  | c :: rest => if c == backtick then some (inner ++ [c], rest) else none

def throughBackticks? : Text → Cut
  | [] => none
  | c :: rest =>
    if c == '\n' then none
    else if c == backtick && rest.head? == some backtick then
      some ([backtick, backtick], rest.tail)
    else (throughBackticks? rest).map fun (inner, rest) => (c :: inner, rest)

def contentThen? (through? : Text → Cut) : Text → Cut
  | [] => none
  | c :: rest =>
    if c == '\n' then none else (through? rest).map fun (inner, rest) => (c :: inner, rest)

def interpreted? (text : Text) : Cut :=
  match text with
  | [] => none
  | c :: rest =>
    if c == backtick then
      (contentThen? throughBacktick? rest).map fun (inner, rest) => (c :: inner, rest)
    else none

def literal? (text : Text) : Cut :=
  match Text.after? "``" text with
  | none => none
  | some rest =>
    (contentThen? throughBackticks? rest).map fun (inner, rest) => ("``" ++ inner, rest)

def reference? (text : Text) : Cut :=
  let role := text.takeWhile isRoleChar
  if isRole role then
    (interpreted? (text.dropWhile isRoleChar)).map fun (inner, rest) => (role ++ inner, rest)
  else none

def metadata? (text : Text) : Cut :=
  match Text.after? ":meta " text with
  | none => none
  | some rest =>
    let line := rest.takeWhile (· != '\n')
    if line.tail.contains ':' then some (":meta " ++ line, rest.dropWhile (· != '\n')) else none

/-- The span of markup that starts a text. A role comes first, then a pair of backticks, metadata,
and a single backtick. -/
def span? (text : Text) : Cut :=
  [reference?, literal?, metadata?, interpreted?].findSome? (· text)

end Markup

inductive Piece where
  | span (text : Text)
  | plain (c : Char)
  deriving DecidableEq

namespace Piece

def text : Piece → Text
  | span text => text
  | plain c => [c]

def textOf (pieces : List Piece) : Text := pieces.flatMap text

end Piece

namespace Markup

theorem throughBacktick?_cons (c : Char) (rest : Text) :
    throughBacktick? (c :: rest) =
      if c == backtick then some ([c], rest)
      else if c == '\n' then none
      else (throughBacktick? rest).map fun (inner, rest) => (c :: inner, rest) := by
  unfold throughBacktick?
  by_cases tick : c = backtick
  · simp [tick]
  · by_cases feed : c = '\n'
    · simp [feed, backtick]
    · have inside : (c != backtick && c != '\n') = true := by simp [tick, feed]
      simp only [List.takeWhile_cons, List.dropWhile_cons, inside, tick, feed, beq_iff_eq,
        ↓reduceIte]
      split
      · rfl
      · split <;> rfl

theorem contentThen?_append {through? : Text → Cut}
    (exact : ∀ {text inner rest}, through? text = some (inner, rest) → inner ++ rest = text)
    {text inner rest : Text} (h : contentThen? through? text = some (inner, rest)) :
    inner ++ rest = text := by
  cases text with
  | nil => simp [contentThen?] at h
  | cons c tail =>
    simp only [contentThen?] at h
    split at h
    · contradiction
    · simp only [Option.map_eq_some_iff, Prod.mk.injEq, Prod.exists] at h
      obtain ⟨a, b, hab, rfl, rfl⟩ := h
      simp [exact hab]

theorem throughBacktick?_append {text inner rest : Text}
    (h : throughBacktick? text = some (inner, rest)) : inner ++ rest = text := by
  simp only [throughBacktick?] at h
  split at h
  · contradiction
  · rename_i c tail heq
    split at h
    · simp only [Option.some.injEq, Prod.mk.injEq] at h
      obtain ⟨rfl, rfl⟩ := h
      rw [List.append_assoc, List.singleton_append, ← heq, List.takeWhile_append_dropWhile]
    · contradiction

theorem throughBackticks?_append {text inner rest : Text}
    (h : throughBackticks? text = some (inner, rest)) : inner ++ rest = text := by
  induction text generalizing inner with
  | nil => simp [throughBackticks?] at h
  | cons c tail ih =>
    simp only [throughBackticks?] at h
    split at h
    · contradiction
    · split at h
      · rename_i heq
        simp only [Bool.and_eq_true, beq_iff_eq] at heq
        obtain ⟨rfl, hd⟩ := heq
        simp only [Option.some.injEq, Prod.mk.injEq] at h
        obtain ⟨rfl, rfl⟩ := h
        cases tail <;> simp_all
      · simp only [Option.map_eq_some_iff, Prod.mk.injEq, Prod.exists] at h
        obtain ⟨a, b, hab, rfl, rfl⟩ := h
        simp [ih hab]

theorem interpreted?_append {text inner rest : Text}
    (h : interpreted? text = some (inner, rest)) : inner ++ rest = text := by
  cases text with
  | nil => simp [interpreted?] at h
  | cons c tail =>
    simp only [interpreted?] at h
    split at h
    · simp only [Option.map_eq_some_iff, Prod.mk.injEq, Prod.exists] at h
      obtain ⟨a, b, hab, rfl, rfl⟩ := h
      simp [contentThen?_append throughBacktick?_append hab]
    · contradiction

theorem literal?_append {text inner rest : Text}
    (h : literal? text = some (inner, rest)) : inner ++ rest = text := by
  simp only [literal?] at h
  split at h
  · contradiction
  · rename_i tail heq
    rw [Text.after?_eq_some_iff] at heq
    simp only [Option.map_eq_some_iff, Prod.mk.injEq, Prod.exists] at h
    obtain ⟨a, b, hab, rfl, rfl⟩ := h
    rw [heq, List.append_assoc, contentThen?_append throughBackticks?_append hab]

theorem reference?_append {text inner rest : Text}
    (h : reference? text = some (inner, rest)) : inner ++ rest = text := by
  simp only [reference?] at h
  split at h
  · simp only [Option.map_eq_some_iff, Prod.mk.injEq, Prod.exists] at h
    obtain ⟨a, b, hab, rfl, rfl⟩ := h
    rw [List.append_assoc, interpreted?_append hab, List.takeWhile_append_dropWhile]
  · contradiction

theorem metadata?_append {text inner rest : Text}
    (h : metadata? text = some (inner, rest)) : inner ++ rest = text := by
  simp only [metadata?] at h
  split at h
  · contradiction
  · rename_i tail heq
    rw [Text.after?_eq_some_iff] at heq
    split at h
    · simp only [Option.some.injEq, Prod.mk.injEq] at h
      obtain ⟨rfl, rfl⟩ := h
      rw [heq, List.append_assoc, List.takeWhile_append_dropWhile]
    · contradiction

theorem span?_append {text inner rest : Text}
    (h : span? text = some (inner, rest)) : inner ++ rest = text := by
  obtain ⟨cut, member, h⟩ := List.exists_of_findSome?_eq_some h
  simp only [List.mem_cons, List.not_mem_nil, or_false] at member
  rcases member with rfl | rfl | rfl | rfl
  · exact reference?_append h
  · exact literal?_append h
  · exact metadata?_append h
  · exact interpreted?_append h

theorem interpreted?_ne_nil {text inner rest : Text}
    (h : interpreted? text = some (inner, rest)) : inner ≠ [] := by
  cases text with
  | nil => simp [interpreted?] at h
  | cons c tail =>
    simp only [interpreted?] at h
    split at h
    · simp only [Option.map_eq_some_iff, Prod.mk.injEq, Prod.exists] at h
      obtain ⟨a, b, -, rfl, -⟩ := h
      simp
    · contradiction

theorem span?_ne_nil {text inner rest : Text}
    (h : span? text = some (inner, rest)) : inner ≠ [] := by
  obtain ⟨cut, member, h⟩ := List.exists_of_findSome?_eq_some h
  simp only [List.mem_cons, List.not_mem_nil, or_false] at member
  rcases member with rfl | rfl | rfl | rfl
  · simp only [reference?] at h
    split at h
    · simp only [Option.map_eq_some_iff, Prod.mk.injEq, Prod.exists] at h
      obtain ⟨a, b, hab, rfl, -⟩ := h
      simp [interpreted?_ne_nil hab]
    · contradiction
  · simp only [literal?] at h
    split at h
    · contradiction
    · simp only [Option.map_eq_some_iff, Prod.mk.injEq, Prod.exists] at h
      obtain ⟨a, b, -, rfl, -⟩ := h
      simp
  · simp only [metadata?] at h
    split at h
    · contradiction
    · split at h
      · simp only [Option.some.injEq, Prod.mk.injEq] at h
        obtain ⟨rfl, -⟩ := h
        simp
      · contradiction
  · exact interpreted?_ne_nil h

theorem span?_length_lt {text inner rest : Text}
    (h : span? text = some (inner, rest)) : rest.length < text.length := by
  have := List.length_pos_iff.mpr (span?_ne_nil h)
  rw [← span?_append h, List.length_append]
  omega

def pieces (text : Text) : List Piece :=
  match text with
  | [] => []
  | c :: rest =>
    match _h : span? (c :: rest) with
    | some (inner, behind) => .span inner :: pieces behind
    | none => .plain c :: pieces rest
termination_by text.length
decreasing_by
  · exact span?_length_lt _h
  · simp

theorem pieces_of_some {text inner rest : Text} (taken : span? text = some (inner, rest)) :
    pieces text = .span inner :: pieces rest := by
  cases text with
  | nil => cases taken
  | cons c tail =>
    rw [pieces]
    split
    · rename_i found
      rw [taken] at found
      cases found
      rfl
    · rename_i none
      rw [taken] at none
      cases none

theorem pieces_of_none {c : Char} {rest : Text} (none : span? (c :: rest) = none) :
    pieces (c :: rest) = .plain c :: pieces rest := by
  rw [pieces]
  split
  · rename_i found
    rw [none] at found
    cases found
  · rfl

theorem textOf_pieces (text : Text) : Piece.textOf (pieces text) = text := by
  fun_induction pieces text with
  | case1 => rfl
  | case2 c rest inner behind h ih =>
    simp only [Piece.textOf, List.flatMap_cons, Piece.text] at ih ⊢
    rw [ih, span?_append h]
  | case3 c rest h ih =>
    simp only [Piece.textOf, List.flatMap_cons, Piece.text] at ih ⊢
    rw [ih, List.singleton_append]

end Markup

end DocMarkup
