import DocMarkup.Field.Markup
import DocMarkup.Proofs.Text.Pattern

namespace DocMarkup

namespace Markup

open Pattern

def anyPattern : Pattern := char (· != '\n')

def roleNamePattern : Pattern :=
  andThen (star true (andThen (plus true (char isAlphanumeric)) (char joinsRoleWords)))
    (plus true (char isAlphanumeric))

def rolePattern : Pattern := andThen (literal ":") (andThen roleNamePattern (literal ":"))

def interpretedPattern : Pattern :=
  andThen (literal [backtick]) (andThen (plus false anyPattern) (literal [backtick]))

def referencePattern : Pattern := andThen rolePattern interpretedPattern

def literalPattern : Pattern :=
  andThen (literal "``") (andThen (plus false anyPattern) (literal "``"))

def metadataPattern : Pattern :=
  andThen (literal ":meta ")
    (andThen (andThen (plus true anyPattern) (literal ":")) (star true anyPattern))

def pattern : Pattern :=
  orElse referencePattern (orElse literalPattern (orElse metadataPattern interpretedPattern))

theorem rests_star_any_cons (ending : Text) (c : Char) (rest : Text) :
    (((star false anyPattern).rests (c :: rest)).flatMap (literal ending).rests).head? =
      (Text.after? ending (c :: rest)).or
        (if c == '\n' then none
        else (((star false anyPattern).rests rest).flatMap (literal ending).rests).head?) := by
  rw [anyPattern, rests_star_char]
  by_cases feed : c = '\n'
  · simp [feed, rests_literal]
  · simp [feed, rests_literal, List.head?_append]

section Content

variable {ending : Text} {through? : Text → Cut} (filled : ending ≠ []) (none : through? [] = none)
  (step : ∀ c rest, (through? (c :: rest)).map Prod.snd =
    (Text.after? ending (c :: rest)).or
      (if c == '\n' then Option.none else (through? rest).map Prod.snd))

include filled none step

theorem rests_star_any (text : Text) :
    (((star false anyPattern).rests text).flatMap (literal ending).rests).head? =
      (through? text).map Prod.snd := by
  induction text with
  | nil =>
    obtain ⟨c, ending, rfl⟩ := List.exists_cons_of_ne_nil filled
    rw [anyPattern, rests_star_char_nil, none]
    rfl
  | cons c rest ih => rw [rests_star_any_cons, step, ih]

theorem rests_plus_any (text : Text) :
    ((andThen (plus false anyPattern) (literal ending)).rests text).head? =
      (contentThen? through? text).map Prod.snd := by
  cases text with
  | nil => rfl
  | cons c rest =>
    have shortest := rests_star_any filled none step rest
    have first : (andThen (plus false anyPattern) (literal ending)).rests (c :: rest) =
        ((if c != '\n' then [rest] else []).flatMap
          (star false anyPattern).rests).flatMap (literal ending).rests := rfl
    rw [first, contentThen?]
    by_cases feed : c = '\n'
    · simp [feed]
    · simp [feed, shortest, Function.comp_def]

end Content

theorem throughBacktick?_step (c : Char) (rest : Text) :
    (throughBacktick? (c :: rest)).map Prod.snd =
      (Text.after? [backtick] (c :: rest)).or
        (if c == '\n' then none else (throughBacktick? rest).map Prod.snd) := by
  rw [throughBacktick?_cons]
  by_cases tick : c = backtick
  · simp [tick, Text.after?]
  · have other : Text.after? [backtick] (c :: rest) = none := if_neg (Ne.symm tick)
    rw [other, Option.none_or, if_neg (by simpa using tick)]
    split
    · rfl
    · rw [Option.map_map]
      rfl

theorem throughBackticks?_step (c : Char) (rest : Text) :
    (throughBackticks? (c :: rest)).map Prod.snd =
      (Text.after? "``" (c :: rest)).or
        (if c == '\n' then none else (throughBackticks? rest).map Prod.snd) := by
  have ends : Text.after? "``" (c :: rest) =
      if c == backtick && rest.head? == some backtick then some rest.tail else none := by
    have both : ("``" : Text) = [backtick, backtick] := rfl
    rw [both]
    cases rest with
    | nil => simp [Text.after?]
    | cons d rest => grind [Text.after?]
  rw [ends, throughBackticks?]
  by_cases feed : c = '\n'
  · simp [feed, backtick]
  · by_cases closes : (c == backtick && rest.head? == some backtick) = true <;>
      simp [feed, closes, Function.comp_def]

theorem interpreted?_rests (text : Text) :
    (interpretedPattern.rests text).head? = (interpreted? text).map Prod.snd := by
  have content := rests_plus_any (List.cons_ne_nil _ _) rfl throughBacktick?_step
  rw [interpretedPattern, rests, rests_literal]
  cases text with
  | nil => rfl
  | cons c rest =>
    rw [interpreted?]
    by_cases tick : c = backtick
    · simp [tick, Text.after?, content, Function.comp_def]
    · have other : Text.after? [backtick] (c :: rest) = none := if_neg (Ne.symm tick)
      simp [tick, other]

theorem literal?_rests (text : Text) :
    (literalPattern.rests text).head? = (literal? text).map Prod.snd := by
  have content := rests_plus_any (List.cons_ne_nil _ _) rfl throughBackticks?_step
  rw [literalPattern, rests, rests_literal, literal?]
  cases Text.after? "``" text with
  | none => rfl
  | some rest =>
    rw [Option.toList_some, List.flatMap_singleton]
    simp only [Option.map_map]
    exact content rest

theorem head?_flatMap_of_forall {α β : Type} {list : List α} {f : α → List β} {b : β}
    (same : ∀ a ∈ list, (f a).head? = some b) :
    (list.flatMap f).head? = if list = [] then none else some b := by
  cases list with
  | nil => rfl
  | cons a list =>
    rw [List.flatMap_cons, List.head?_append, same a List.mem_cons_self, Option.some_or,
      if_neg (List.cons_ne_nil _ _)]

theorem exists_metadata_iff {text : Text} :
    (andThen (plus true anyPattern) (literal ":")).rests text ≠ [] ↔
      ':' ∈ (text.takeWhile (· != '\n')).tail := by
  constructor
  · intro filled
    obtain ⟨rest, member⟩ := List.exists_mem_of_ne_nil _ filled
    obtain ⟨_, ⟨word, inside, _, colon, rfl⟩, rfl⟩ := mem_rests_iff.mp member
    obtain ⟨begun, line⟩ := mem_language_plus_char.mp inside
    obtain ⟨c, word, rfl⟩ := List.exists_cons_of_ne_nil begun
    rw [mem_language_literal.mp colon, List.append_assoc, List.takeWhile_append_of_pos line]
    simp
  · intro member
    have whole := List.takeWhile_append_dropWhile (p := (· != '\n')) (l := text)
    have line : ∀ c ∈ text.takeWhile (· != '\n'), (c != '\n') = true :=
      fun c inside => List.all_eq_true.mp List.all_takeWhile c inside
    cases start : text.takeWhile (· != '\n') with
    | nil =>
      rw [start] at member
      cases member
    | cons c content =>
      rw [start] at member whole line
      obtain ⟨between, behind, rfl⟩ := List.append_of_mem member
      have inside : c :: between ∈ (plus true anyPattern).language :=
        cons_mem_plus_char (line c List.mem_cons_self)
          fun d among => line d (List.mem_cons_of_mem c (List.mem_append_left _ among))
      have colon : (":" : Text) ∈ (literal ":").language := mem_language_literal.mpr rfl
      have met : behind ++ text.dropWhile (· != '\n') ∈
          (andThen (plus true anyPattern) (literal ":")).rests text :=
        mem_rests_iff.mpr ⟨_, Language.append_mem_mul inside colon, by simpa using whole⟩
      exact List.ne_nil_of_mem met

theorem metadata?_rests (text : Text) :
    (metadataPattern.rests text).head? = (metadata? text).map Prod.snd := by
  rw [metadataPattern, rests, rests_literal, metadata?]
  cases Text.after? ":meta " text with
  | none => rfl
  | some rest =>
    have toEnd : ∀ behind ∈ (andThen (plus true anyPattern) (literal ":")).rests rest,
        ((star true anyPattern).rests behind).head? = some (rest.dropWhile (· != '\n')) := by
      intro behind member
      obtain ⟨_, ⟨word, inside, _, colon, rfl⟩, rfl⟩ := mem_rests_iff.mp member
      have line := (mem_language_plus_char.mp inside).2
      rw [anyPattern, head?_rests_star_greedy, mem_language_literal.mp colon, List.append_assoc,
        List.dropWhile_append_of_pos line]
      rfl
    rw [Option.toList_some, List.flatMap_singleton, rests, head?_flatMap_of_forall toEnd]
    by_cases colon : ':' ∈ (rest.takeWhile (· != '\n')).tail
    · rw [if_neg (exists_metadata_iff.mpr colon)]
      simp [colon]
    · rw [if_pos (by simpa using mt exists_metadata_iff.mp colon)]
      simp [colon]

theorem isRoleNameFrom_word {word : Text} (filled : word ≠ [])
    (letters : ∀ c ∈ word, isAlphanumeric c = true) (inWord : Bool) (rest : Text) :
    isRoleNameFrom inWord (word ++ rest) = isRoleNameFrom true rest := by
  induction word generalizing inWord with
  | nil => exact absurd rfl filled
  | cons c word ih =>
    obtain ⟨first, others⟩ := List.forall_mem_cons.mp letters
    rw [List.cons_append, isRoleNameFrom, if_pos first]
    by_cases last : word = []
    · rw [last, List.nil_append]
    · exact ih last others true

theorem isAlphanumeric_of_joinsRoleWords {c : Char} (joins : joinsRoleWords c = true) :
    isAlphanumeric c = false := by
  simp only [joinsRoleWords, Bool.or_eq_true, beq_iff_eq] at joins
  rcases joins with (((rfl | rfl) | rfl) | rfl) | rfl <;> decide

theorem isRoleNameFrom_join {c : Char} (joins : joinsRoleWords c = true) (rest : Text) :
    isRoleNameFrom true (c :: rest) = isRoleNameFrom false rest := by
  rw [isRoleNameFrom, isAlphanumeric_of_joinsRoleWords joins, joins]
  rfl

theorem isRoleName_of_mem {name : Text} (member : name ∈ roleNamePattern.language) :
    isRoleName name = true := by
  obtain ⟨_, ⟨parts, rfl, joined⟩, last, word, rfl⟩ := member
  obtain ⟨filled, letters⟩ := mem_language_plus_char.mp word
  induction parts with
  | nil =>
    have alone := isRoleNameFrom_word filled letters false []
    rwa [List.append_nil] at alone
  | cons part parts ih =>
    obtain ⟨first, others⟩ := List.forall_mem_cons.mp joined
    obtain ⟨front, inside, _, ⟨c, joins, rfl⟩, rfl⟩ := first
    obtain ⟨begun, word⟩ := mem_language_plus_char.mp inside
    have whole : ((front ++ [c]) :: parts).flatten ++ last =
        front ++ c :: (parts.flatten ++ last) := by
      simp
    change isRoleName (((front ++ [c]) :: parts).flatten ++ last) = true
    rw [whole, isRoleName, isRoleNameFrom_word begun word, isRoleNameFrom_join joins]
    exact ih others

section Longer

variable {c d : Char} {name : Text} (letter : isAlphanumeric c = true)
  (member : name ∈ roleNamePattern.language)

include letter member

theorem cons_mem_roleName : c :: name ∈ roleNamePattern.language := by
  obtain ⟨_, ⟨parts, rfl, joined⟩, last, word, rfl⟩ := member
  cases parts with
  | nil =>
    obtain ⟨-, letters⟩ := mem_language_plus_char.mp word
    exact Language.append_mem_mul (Language.nil_mem_kstar _) (cons_mem_plus_char letter letters)
  | cons part parts =>
    obtain ⟨first, others⟩ := List.forall_mem_cons.mp joined
    obtain ⟨front, inside, behind, join, rfl⟩ := first
    obtain ⟨-, letters⟩ := mem_language_plus_char.mp inside
    have longer : c :: front ∈ (plus true (char isAlphanumeric)).language :=
      cons_mem_plus_char letter letters
    have more := append_mem_kstar (Language.append_mem_mul longer join)
      (Language.join_mem_kstar others)
    exact Language.append_mem_mul more word

theorem join_mem_roleName (joins : joinsRoleWords d = true) :
    c :: d :: name ∈ roleNamePattern.language := by
  obtain ⟨front, parts, last, word, rfl⟩ := member
  have single : [c] ∈ (plus true (char isAlphanumeric)).language :=
    cons_mem_plus_char letter (List.forall_mem_nil _)
  have more := append_mem_kstar (Language.append_mem_mul single (singleton_mem_char joins)) parts
  exact Language.append_mem_mul more word

end Longer

theorem mem_roleName_of_isRoleNameFrom (name : Text) :
    (isRoleNameFrom false name = true → name ∈ roleNamePattern.language) ∧
      (isRoleNameFrom true name = true →
        ∀ c, isAlphanumeric c = true → c :: name ∈ roleNamePattern.language) := by
  induction name with
  | nil =>
    refine ⟨nofun, fun _ c letter => ?_⟩
    exact Language.append_mem_mul (Language.nil_mem_kstar _)
      (cons_mem_plus_char letter (List.forall_mem_nil _))
  | cons d name ih =>
    rw [isRoleNameFrom, isRoleNameFrom]
    by_cases letter : isAlphanumeric d = true
    · simp only [letter, ↓reduceIte]
      refine ⟨fun more => ih.2 more d letter, fun more c first => ?_⟩
      exact cons_mem_roleName first (ih.2 more d letter)
    · simp only [letter, Bool.false_eq_true, ↓reduceIte, Bool.false_and, Bool.true_and,
        Bool.and_eq_true]
      exact ⟨False.elim, fun more c first => join_mem_roleName first (ih.1 more.2) more.1⟩

theorem mem_language_rolePattern_iff {role : Text} :
    role ∈ rolePattern.language ↔ isRole role = true := by
  constructor
  · rintro ⟨_, colon, _, ⟨name, inside, _, ends, rfl⟩, rfl⟩
    rw [mem_language_literal.mp colon, mem_language_literal.mp ends]
    simpa [isRole] using isRoleName_of_mem inside
  · intro form
    unfold isRole at form
    split at form
    · rename_i rest
      rw [Bool.and_eq_true, beq_iff_eq] at form
      obtain ⟨name, rfl⟩ := List.getLast?_eq_some_iff.mp form.1
      rw [List.dropLast_concat] at form
      have colon : (":" : Text) ∈ (literal ":").language := mem_language_literal.mpr rfl
      have inside := (mem_roleName_of_isRoleNameFrom name).1 form.2
      exact Language.append_mem_mul colon (Language.append_mem_mul inside colon)
    · cases form

theorem isRoleChar_of_isRoleNameFrom {inWord : Bool} {name : Text}
    (isName : isRoleNameFrom inWord name = true) : ∀ c ∈ name, isRoleChar c = true := by
  induction name generalizing inWord with
  | nil => exact nofun
  | cons c name ih =>
    rw [isRoleNameFrom] at isName
    split at isName
    · rename_i letter
      exact List.forall_mem_cons.mpr ⟨by simp [isRoleChar, letter], ih isName⟩
    · rw [Bool.and_eq_true, Bool.and_eq_true] at isName
      exact List.forall_mem_cons.mpr ⟨by simp [isRoleChar, isName.1.2], ih isName.2⟩

theorem isRoleChar_of_mem_rolePattern {role : Text} (member : role ∈ rolePattern.language) :
    ∀ c ∈ role, isRoleChar c = true := by
  obtain ⟨_, colon, _, ⟨name, inside, _, ends, rfl⟩, rfl⟩ := member
  have letters := isRoleChar_of_isRoleNameFrom (isRoleName_of_mem inside)
  have joins : isRoleChar ':' = true := by decide
  rw [mem_language_literal.mp colon, mem_language_literal.mp ends]
  simpa [joins, or_imp, forall_and] using letters

theorem head?_flatMap_of_unique {α β : Type} {list : List α} {f : α → List β} {a : α}
    (unique : ∀ other ∈ list, f other ≠ [] → other = a) (member : a ∈ list ∨ f a = []) :
    (list.flatMap f).head? = (f a).head? := by
  induction list with
  | nil =>
    rw [member.resolve_left List.not_mem_nil]
    rfl
  | cons b list ih =>
    obtain ⟨first, others⟩ := List.forall_mem_cons.mp unique
    rw [List.flatMap_cons]
    by_cases empty : f b = []
    · rw [empty, List.nil_append]
      apply ih others
      rcases member with inside | nothing
      · rcases List.mem_cons.mp inside with rfl | later
        · exact Or.inr empty
        · exact Or.inl later
      · exact Or.inr nothing
    · rw [List.head?_append_of_ne_nil _ empty, first empty]

theorem exists_backtick_of_interpreted {text : Text} (taken : interpretedPattern.rests text ≠ []) :
    ∃ rest, text = backtick :: rest := by
  obtain ⟨rest, member⟩ := List.exists_mem_of_ne_nil _ taken
  obtain ⟨_, ⟨_, tick, more, -, rfl⟩, rfl⟩ := mem_rests_iff.mp member
  rw [mem_language_literal.mp tick]
  exact ⟨more ++ rest, rfl⟩

theorem reference?_rests (text : Text) :
    (referencePattern.rests text).head? = (reference? text).map Prod.snd := by
  have stops : ∀ behind, interpretedPattern.rests behind ≠ [] →
      behind.takeWhile isRoleChar = [] ∧ behind.dropWhile isRoleChar = behind := by
    intro behind taken
    obtain ⟨rest, rfl⟩ := exists_backtick_of_interpreted taken
    exact ⟨rfl, rfl⟩
  have unique : ∀ behind ∈ rolePattern.rests text, interpretedPattern.rests behind ≠ [] →
      behind = text.dropWhile isRoleChar ∧ isRole (text.takeWhile isRoleChar) = true := by
    intro behind member taken
    obtain ⟨role, inside, rfl⟩ := mem_rests_iff.mp member
    have word := isRoleChar_of_mem_rolePattern inside
    rw [List.takeWhile_append_of_pos word, List.dropWhile_append_of_pos word, (stops _ taken).1,
      (stops _ taken).2, List.append_nil]
    exact ⟨rfl, mem_language_rolePattern_iff.mp inside⟩
  rw [referencePattern, rests, reference?]
  by_cases role : isRole (text.takeWhile isRoleChar) = true
  · have member : text.dropWhile isRoleChar ∈ rolePattern.rests text :=
      mem_rests_iff.mpr ⟨_, mem_language_rolePattern_iff.mpr role, List.takeWhile_append_dropWhile⟩
    rw [head?_flatMap_of_unique (fun behind among taken => (unique behind among taken).1)
      (Or.inl member), interpreted?_rests, if_pos role, Option.map_map]
    rfl
  · have nothing : (rolePattern.rests text).flatMap interpretedPattern.rests = [] := by
      apply List.flatMap_eq_nil_iff.mpr
      intro behind member
      exact Decidable.byContradiction fun taken => role (unique behind member taken).2
    rw [nothing, if_neg role]
    rfl

theorem span?_eq_or (text : Text) :
    span? text =
      (reference? text).or ((literal? text).or ((metadata? text).or (interpreted? text))) := by
  simp only [span?, List.findSome?_cons, List.findSome?_nil]
  cases reference? text <;> cases literal? text <;> cases metadata? text <;>
    cases interpreted? text <;> rfl

theorem span?_eq (text : Text) : span? text = pattern.cut? text := by
  refine (cut?_eq span?_append ?_).symm
  simp only [pattern, rests, List.head?_append, reference?_rests, literal?_rests, metadata?_rests,
    interpreted?_rests, span?_eq_or, Option.map_or]

end Markup

end DocMarkup
