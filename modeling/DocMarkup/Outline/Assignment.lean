import DocMarkup.Outline.Statement
import DocMarkup.Text.Word

/-!
Assignments to plain names. `a = b = value` has the targets `a` and `b`; comparisons, augmented and
annotated assignments, and targets that are no plain names give none.
-/

namespace DocMarkup

def startsIdentifier (c : Char) : Bool := isLetter c || c == '_'

def isIdentifier : Text → Bool
  | [] => false
  | c :: rest => startsIdentifier c && rest.all isWord

namespace Assignment

def joinsEquals (c : Char) : Bool := "=!<>:+-*/%&|^@".toList.contains c

def cutFrom (quote : Option Char) (depth : Nat) (previous : Char) : Text → Option (Text × Text)
  | [] => none
  | c :: rest =>
    match quote with
    | some q =>
      if c == '\\' then
        match rest with
        | [] => none
        | d :: rest =>
          (cutFrom quote depth d rest).map fun (before, after) => (c :: d :: before, after)
      else
        (cutFrom (if c == q then none else quote) depth c rest).map fun (before, after) =>
          (c :: before, after)
    | none =>
      if c == '#' then none
      else if c == '=' && depth == 0 && rest.head? != some '=' && !joinsEquals previous then
        some ([], rest)
      else
        (cutFrom (if isQuote c then some c else none) (bracketDepth depth c) c rest).map
          fun (before, after) => (c :: before, after)

/-- The texts around the first equals sign that is outside brackets, literals and comments and part
of no operator. -/
def cut? (text : Text) : Option (Text × Text) := cutFrom none 0 ' ' text

theorem cutFrom_append {quote : Option Char} {depth : Nat} {previous : Char}
    {text before after : Text} (h : cutFrom quote depth previous text = some (before, after)) :
    before ++ '=' :: after = text := by
  fun_induction cutFrom quote depth previous text generalizing before with
  | case1 => contradiction
  | case2 => contradiction
  | case3 _ _ q _ d rest' _ ih =>
    simp only [Option.map_eq_some_iff, Prod.mk.injEq, Prod.exists] at h
    obtain ⟨a, b, hab, rfl, rfl⟩ := h
    simp [ih hab]
  | case4 _ _ _ _ _ _ ih =>
    simp only [Option.map_eq_some_iff, Prod.mk.injEq, Prod.exists] at h
    obtain ⟨a, b, hab, rfl, rfl⟩ := h
    simp [ih hab]
  | case5 => contradiction
  | case6 =>
    simp_all
  | case7 _ _ _ _ _ _ ih =>
    simp only [Option.map_eq_some_iff, Prod.mk.injEq, Prod.exists] at h
    obtain ⟨a, b, hab, rfl, rfl⟩ := h
    simp [ih hab]

theorem cut?_append {text before after : Text} (h : cut? text = some (before, after)) :
    before ++ '=' :: after = text := cutFrom_append h

def split (text : Text) : List Text × Text :=
  match _h : cut? text with
  | some (before, after) =>
    if isIdentifier before.trim then
      let others := split after
      (before.trim :: others.1, others.2)
    else ([], text)
  | none => ([], text)
termination_by text.length
decreasing_by
  rw [← cut?_append _h, List.length_append, List.length_cons]
  omega

def targets (text : Text) : List Text := (split text).1

def value? (text : Text) : Option Text :=
  if (targets text).isEmpty then none else some (split text).2

end Assignment

end DocMarkup
