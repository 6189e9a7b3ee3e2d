import DocMarkup.Outline.Basic
import DocMarkup.Proofs.Text.Trim

namespace DocMarkup

namespace Assignment

/-- The text assigns to the name: it begins with names that have an equals sign behind them, one of
which is this name. -/
inductive Assigns (name : Text) : Text → Prop where
  | first {target value : Text} : isIdentifier name = true → target.trim = name →
      value.head? ≠ some '=' → Assigns name (target ++ '=' :: value)
  | later {target value : Text} : isIdentifier target.trim = true → value.head? ≠ some '=' →
      Assigns name value → Assigns name (target ++ '=' :: value)

theorem cutFrom_code (depth : Nat) (previous c : Char) (rest : Text) :
    cutFrom none depth previous (c :: rest) =
      if c == '#' then none
      else if c == '=' && depth == 0 && rest.head? != some '=' && !joinsEquals previous then
        some ([], rest)
      else
        (cutFrom (if isQuote c then some c else none) (bracketDepth depth c) c rest).map
          fun (before, after) => (c :: before, after) := by
  rw [cutFrom]

theorem targets_of_cut {text before after : Text} (cut : cut? text = some (before, after)) :
    targets text =
      if isIdentifier before.trim then before.trim :: targets after else [] := by
  rw [targets, split]
  split
  · rename_i found
    rw [cut] at found
    cases found
    split <;> rfl
  · rename_i found
    rw [cut] at found
    contradiction

theorem targets_of_no_cut {text : Text} (none : cut? text = none) : targets text = [] := by
  rw [targets, split]
  split
  · rename_i found
    rw [none] at found
    contradiction
  · rfl

theorem head?_ne_of_cutFrom {quote : Option Char} {depth : Nat} {previous : Char}
    {text before after : Text} (cut : cutFrom quote depth previous text = some (before, after)) :
    after.head? ≠ some '=' := by
  fun_induction cutFrom quote depth previous text generalizing before with
  | case1 => contradiction
  | case2 => contradiction
  | case3 _ _ _ _ _ _ _ ih | case4 _ _ _ _ _ _ ih | case7 _ _ _ _ _ _ ih =>
    obtain ⟨parts, found, eq⟩ := Option.map_eq_some_iff.mp cut
    cases eq
    exact ih found
  | case5 => contradiction
  | case6 _ _ _ _ _ bare =>
    cases cut
    simp only [Bool.and_eq_true, bne_iff_ne] at bare
    exact bare.1.2

def isNamePart (c : Char) : Bool := isBlank c || isWord c

def operators : Text := "=!<>:+-*/%&|^@".toList ++ "#\"'([\x7b)]\x7d".toList

theorem isNamePart_of_mem_operators {c : Char} (member : c ∈ operators) :
    isNamePart c = false := by
  have none : (operators.all fun d => !isNamePart d) = true := rfl
  simpa using List.all_eq_true.mp none c member

section NamePart

variable {c : Char} (part : isNamePart c = true)

include part

theorem not_mem_operators : c ∉ operators := by
  intro member
  rw [isNamePart_of_mem_operators member] at part
  contradiction

theorem joinsEquals_of_isNamePart : joinsEquals c = false := by
  rw [joinsEquals, ← Bool.not_eq_true, List.contains_iff_mem]
  exact fun member => not_mem_operators part (List.mem_append_left _ member)

theorem cutFrom_of_isNamePart (depth : Nat) (previous : Char) (rest : Text) :
    cutFrom none depth previous (c :: rest) =
      (cutFrom none depth c rest).map fun (before, after) => (c :: before, after) := by
  have other {d : Char} (operator : d ∈ operators) : (c == d) = false := by
    rw [beq_eq_false_iff_ne]
    rintro rfl
    exact not_mem_operators part operator
  have quotes : isQuote c = false := by
    rw [isQuote, other (by decide), other (by decide), Bool.or_false]
  have opens : opensBracket c = false := by
    rw [opensBracket, other (by decide), other (by decide), other (by decide)]
    rfl
  have closes : closesBracket c = false := by
    rw [closesBracket, other (by decide), other (by decide), other (by decide)]
    rfl
  rw [cutFrom_code, other (by decide), other (by decide), quotes, bracketDepth, opens, closes]
  rfl

end NamePart

theorem cutFrom_name {target value : Text} {previous : Char}
    (parts : ∀ c ∈ target, isNamePart c = true) (code : joinsEquals previous = false)
    (bare : value.head? ≠ some '=') :
    cutFrom none 0 previous (target ++ '=' :: value) = some (target, value) := by
  induction target generalizing previous with
  | nil =>
    have next : (value.head? != some '=') = true := bne_iff_ne.mpr bare
    rw [List.nil_append, cutFrom_code, next, code]
    rfl
  | cons c target ih =>
    have first := parts c List.mem_cons_self
    have rest := ih (fun d member => parts d (List.mem_cons_of_mem _ member))
      (joinsEquals_of_isNamePart first)
    rw [List.cons_append, cutFrom_of_isNamePart first, rest]
    rfl

theorem isWord_of_startsIdentifier {c : Char} (starts : startsIdentifier c = true) :
    isWord c = true := by
  rw [startsIdentifier, Bool.or_eq_true, beq_iff_eq] at starts
  rcases starts with letter | rfl
  · have small : c.toNat < 0x80 := by
      simp only [isLetter, Bool.or_eq_true, Bool.and_eq_true, decide_eq_true_eq] at letter
      rcases letter with ⟨-, bound⟩ | ⟨-, bound⟩
      · exact Nat.lt_of_le_of_lt (UInt32.le_iff_toNat_le.mp bound) (by decide)
      · exact Nat.lt_of_le_of_lt (UInt32.le_iff_toNat_le.mp bound) (by decide)
    rw [isWord, if_pos small, isAlphanumeric, letter]
    rfl
  · rfl

theorem isWord_of_isIdentifier {name : Text} (named : isIdentifier name = true) :
    ∀ c ∈ name, isWord c = true := by
  cases name with
  | nil => contradiction
  | cons c rest =>
    rw [isIdentifier, Bool.and_eq_true] at named
    intro d member
    rcases List.mem_cons.mp member with rfl | member
    · exact isWord_of_startsIdentifier named.1
    · exact List.all_eq_true.mp named.2 d member

theorem cut?_of_isIdentifier {target value : Text} (named : isIdentifier target.trim = true)
    (bare : value.head? ≠ some '=') : cut? (target ++ '=' :: value) = some (target, value) := by
  refine cutFrom_name ?_ rfl bare
  intro c member
  cases blank : isBlank c with
  | true => rw [isNamePart, blank, Bool.true_or]
  | false =>
    have inside := (Text.mem_trim_iff blank).mpr member
    rw [isNamePart, isWord_of_isIdentifier named c inside, Bool.or_true]

theorem mem_targets_iff {name text : Text} : name ∈ targets text ↔ Assigns name text := by
  constructor
  · intro member
    induction text using split.induct with
    | case1 text before after cut named ih =>
      have bare := head?_ne_of_cutFrom cut
      rw [targets_of_cut cut, if_pos named] at member
      rw [← cut?_append cut]
      rcases List.mem_cons.mp member with rfl | member
      · exact .first named rfl bare
      · exact .later named bare (ih member)
    | case2 text before after cut other =>
      rw [targets_of_cut cut, if_neg other] at member
      contradiction
    | case3 text none =>
      rw [targets_of_no_cut none] at member
      contradiction
  · intro assigns
    induction assigns with
    | first named same bare =>
      rw [← same] at named
      rw [targets_of_cut (cut?_of_isIdentifier named bare), if_pos named, same]
      exact List.mem_cons_self
    | later named bare _ ih =>
      rw [targets_of_cut (cut?_of_isIdentifier named bare), if_pos named]
      exact List.mem_cons_of_mem _ ih

theorem split_of_cut {text before after : Text} (cut : cut? text = some (before, after)) :
    split text =
      if isIdentifier before.trim then (before.trim :: (split after).1, (split after).2)
      else ([], text) := by
  rw [split]
  split
  · rename_i found
    rw [cut] at found
    cases found
    rfl
  · rename_i found
    rw [cut] at found
    contradiction

theorem split_of_no_cut {text : Text} (none : cut? text = none) : split text = ([], text) := by
  rw [split]
  split
  · rename_i found
    rw [none] at found
    contradiction
  · rfl

theorem split_of_no_targets {text : Text} (none : targets text = []) : split text = ([], text) := by
  cases cut : cut? text with
  | none => exact split_of_no_cut cut
  | some parts =>
    obtain ⟨before, after⟩ := parts
    rw [targets_of_cut cut] at none
    rw [split_of_cut cut]
    split at none
    · cases none
    · rename_i unnamed
      rw [if_neg unnamed]

theorem mem_of_cut {c : Char} (notEquals : c ≠ '=') {blanks rest before after : Text}
    (blank : ∀ d ∈ blanks, isBlank d = true)
    (cut : cut? (blanks ++ c :: rest) = some (before, after)) : c ∈ before := by
  have whole := cut?_append cut
  rcases List.append_eq_append_iff.mp whole with ⟨gap, same, behind⟩ | ⟨gap, same, behind⟩
  · cases gap with
    | nil => exact absurd (List.cons.inj behind).1.symm notEquals
    | cons d gap =>
      obtain ⟨rfl, -⟩ := List.cons.inj behind
      have absurd := blank '=' (by rw [same]; exact List.mem_append_right _ List.mem_cons_self)
      cases absurd
  · cases gap with
    | nil => exact absurd (List.cons.inj behind).1 notEquals
    | cons d gap =>
      obtain ⟨rfl, -⟩ := List.cons.inj behind
      rw [same]
      exact List.mem_append_right _ List.mem_cons_self

theorem split_of_isNamePart_eq_false {c : Char} (other : isNamePart c = false)
    (notEquals : c ≠ '=') {blanks : Text} (blank : ∀ d ∈ blanks, isBlank d = true) (rest : Text) :
    split (blanks ++ c :: rest) = ([], blanks ++ c :: rest) := by
  rw [isNamePart, Bool.or_eq_false_iff] at other
  cases cut : cut? (blanks ++ c :: rest) with
  | none => exact split_of_no_cut cut
  | some parts =>
    obtain ⟨before, after⟩ := parts
    have inside := (Text.mem_trim_iff other.1).mpr (mem_of_cut notEquals blank cut)
    have unnamed : ¬ isIdentifier before.trim = true := by
      intro named
      have word := isWord_of_isIdentifier named c inside
      rw [other.2] at word
      contradiction
    rw [split_of_cut cut, if_neg unnamed]

end Assignment

end DocMarkup
