import Mathlib.Computability.Language
import DocMarkup.Text.Basic

/-!
Patterns with preferences. A pattern may be met at the start of a text in several ways, and the
search tries them in order: the first branch before the second, one more repetition before or after
none. What it takes is the first way that it comes to. The ways together are the words of the
pattern's language.
-/

namespace DocMarkup

open scoped Computability

inductive Pattern where
  | empty
  | char (accepts : Char → Bool)
  | andThen (first second : Pattern)
  | orElse (first second : Pattern)
  | star (greedy : Bool) (body : Pattern)

namespace Pattern

def literal (text : Text) : Pattern := text.foldr (fun c => andThen (char (· == c))) empty

def plus (greedy : Bool) (body : Pattern) : Pattern := andThen body (star greedy body)

/-- What is left behind the repetitions of a step, the preferred first. A step that takes nothing is
not repeated. -/
def repeated (greedy : Bool) (step : Text → List Text) (text : Text) : List Text :=
  let behind := (step text).flatMap fun rest =>
    if rest.length < text.length then repeated greedy step rest else []
  if greedy then behind ++ [text] else text :: behind
termination_by text.length

/-- What is left behind the pattern at the start of a text, the preferred first. -/
def rests : Pattern → Text → List Text
  | empty, text => [text]
  | char _, [] => []
  | char accepts, c :: rest => if accepts c then [rest] else []
  | andThen first second, text => (first.rests text).flatMap second.rests
  | orElse first second, text => first.rests text ++ second.rests text
  | star greedy body, text => repeated greedy body.rests text

def cut? (pattern : Pattern) (text : Text) : Option (Text × Text) :=
  (pattern.rests text).head?.map fun rest => (text.take (text.length - rest.length), rest)

def language : Pattern → Language Char
  | empty => 1
  | char accepts => {word | ∃ c, accepts c = true ∧ [c] = word}
  | andThen first second => first.language * second.language
  | orElse first second => first.language + second.language
  | star _ body => body.language∗

theorem append_mem_kstar {language : Language Char} {word words : Text} (first : word ∈ language)
    (more : words ∈ language∗) : word ++ words ∈ language∗ := by
  obtain ⟨parts, rfl, inside⟩ := more
  exact ⟨word :: parts, rfl, List.forall_mem_cons.mpr ⟨first, inside⟩⟩

theorem mem_repeated_iff {greedy : Bool} {step : Text → List Text} {language : Language Char}
    (steps : ∀ text rest, rest ∈ step text ↔ ∃ word ∈ language, word ++ rest = text)
    {text rest : Text} :
    rest ∈ repeated greedy step text ↔ ∃ word ∈ language∗, word ++ rest = text := by
  induction size : text.length using Nat.strongRecOn generalizing text with
  | ind n ih =>
    have first : rest ∈ repeated greedy step text ↔
        rest = text ∨ ∃ next ∈ step text, next.length < text.length ∧
          rest ∈ repeated greedy step next := by
      rw [repeated]
      cases greedy <;> simp [or_comm]
    rw [first]
    constructor
    · rintro (rfl | ⟨next, taken, shorter, more⟩)
      · exact ⟨[], Language.nil_mem_kstar _, rfl⟩
      · obtain ⟨front, member, rfl⟩ := (steps _ _).mp taken
        obtain ⟨words, inside, rfl⟩ := (ih _ (size ▸ shorter) rfl).mp more
        exact ⟨front ++ words, append_mem_kstar member inside, List.append_assoc _ _ _⟩
    · rintro ⟨word, words, rfl⟩
      obtain ⟨parts, rfl, inside⟩ := Language.mem_kstar_iff_exists_nonempty.mp words
      cases parts with
      | nil => exact Or.inl rfl
      | cons front parts =>
        obtain ⟨⟨member, nonempty⟩, inside⟩ := List.forall_mem_cons.mp inside
        rw [List.flatten_cons, List.append_assoc] at size ⊢
        have shorter :
            (parts.flatten ++ rest).length < (front ++ (parts.flatten ++ rest)).length := by
          have := List.length_pos_iff.mpr nonempty
          simp only [List.length_append]
          omega
        refine Or.inr ⟨parts.flatten ++ rest, (steps _ _).mpr ⟨front, member, rfl⟩, shorter, ?_⟩
        refine (ih _ (size ▸ shorter) rfl).mpr ⟨parts.flatten, ⟨parts, rfl, ?_⟩, rfl⟩
        exact fun part among => (inside part among).1

/-- A search that goes back to its choices meets a pattern in all ways there are. -/
theorem mem_rests_iff {pattern : Pattern} {text rest : Text} :
    rest ∈ pattern.rests text ↔ ∃ word ∈ pattern.language, word ++ rest = text := by
  induction pattern generalizing text rest with
  | empty =>
    simp [rests, language, eq_comm]
  | char accepts =>
    constructor
    · intro member
      cases text with
      | nil => cases member
      | cons c text =>
        rw [rests] at member
        split at member
        · rename_i accepted
          cases List.mem_singleton.mp member
          exact ⟨[c], ⟨c, accepted, rfl⟩, rfl⟩
        · cases member
    · rintro ⟨_, ⟨c, accepted, rfl⟩, rfl⟩
      rw [List.singleton_append, rests, if_pos accepted]
      exact List.mem_singleton_self rest
  | andThen first second ihFirst ihSecond =>
    rw [rests, List.mem_flatMap]
    constructor
    · rintro ⟨between, front, behind⟩
      obtain ⟨word, member, rfl⟩ := ihFirst.mp front
      obtain ⟨more, inside, rfl⟩ := ihSecond.mp behind
      exact ⟨word ++ more, Language.append_mem_mul member inside, List.append_assoc _ _ _⟩
    · rintro ⟨_, ⟨word, member, more, inside, rfl⟩, rfl⟩
      rw [List.append_assoc]
      exact ⟨more ++ rest, ihFirst.mpr ⟨word, member, rfl⟩, ihSecond.mpr ⟨more, inside, rfl⟩⟩
  | orElse first second ihFirst ihSecond =>
    rw [rests, List.mem_append, ihFirst, ihSecond, ← exists_or]
    exact exists_congr fun word => or_and_right.symm
  | star greedy body ih => exact mem_repeated_iff fun _ _ => ih

theorem singleton_mem_char {accepts : Char → Bool} {c : Char} (accepted : accepts c = true) :
    [c] ∈ (char accepts).language := ⟨c, accepted, rfl⟩

theorem mem_language_literal {text word : Text} : word ∈ (literal text).language ↔ word = text := by
  induction text generalizing word with
  | nil => exact Language.mem_one word
  | cons c text ih =>
    constructor
    · rintro ⟨_, ⟨d, same, rfl⟩, rest, member, rfl⟩
      rw [ih.mp member, beq_iff_eq.mp same]
      rfl
    · rintro rfl
      have first : [c] ∈ (char (· == c)).language := singleton_mem_char (beq_self_eq_true c)
      exact Language.append_mem_mul first (ih.mpr rfl)

theorem mem_language_star_char {greedy : Bool} {accepts : Char → Bool} {word : Text} :
    word ∈ (star greedy (char accepts)).language ↔ ∀ c ∈ word, accepts c = true := by
  constructor
  · rintro ⟨parts, rfl, inside⟩ c member
    obtain ⟨part, among, here⟩ := List.mem_flatten.mp member
    obtain ⟨d, accepted, rfl⟩ := inside part among
    rwa [List.mem_singleton.mp here]
  · intro accepted
    induction word with
    | nil => exact Language.nil_mem_kstar _
    | cons c word ih =>
      obtain ⟨first, others⟩ := List.forall_mem_cons.mp accepted
      exact append_mem_kstar (singleton_mem_char first) (ih others)

theorem mem_language_plus_char {greedy : Bool} {accepts : Char → Bool} {word : Text} :
    word ∈ (plus greedy (char accepts)).language ↔ word ≠ [] ∧ ∀ c ∈ word, accepts c = true := by
  constructor
  · rintro ⟨_, ⟨c, first, rfl⟩, word, more, rfl⟩
    have others := mem_language_star_char.mp more
    exact ⟨List.cons_ne_nil _ _, List.forall_mem_cons.mpr ⟨first, others⟩⟩
  · rintro ⟨filled, accepted⟩
    obtain ⟨c, word, rfl⟩ := List.exists_cons_of_ne_nil filled
    obtain ⟨first, others⟩ := List.forall_mem_cons.mp accepted
    exact Language.append_mem_mul (singleton_mem_char first) (mem_language_star_char.mpr others)

theorem cons_mem_plus_char {greedy : Bool} {accepts : Char → Bool} {c : Char} {word : Text}
    (first : accepts c = true) (others : ∀ d ∈ word, accepts d = true) :
    c :: word ∈ (plus greedy (char accepts)).language :=
  mem_language_plus_char.mpr ⟨List.cons_ne_nil _ _, List.forall_mem_cons.mpr ⟨first, others⟩⟩

theorem cut?_eq {pattern : Pattern} {text : Text} {cut : Option (Text × Text)}
    (whole : ∀ {inner rest}, cut = some (inner, rest) → inner ++ rest = text)
    (left : (pattern.rests text).head? = cut.map Prod.snd) : pattern.cut? text = cut := by
  rw [cut?, left]
  cases cut with
  | none => rfl
  | some parts =>
    rw [← whole rfl]
    simp

theorem rests_literal (start text : Text) :
    (literal start).rests text = (Text.after? start text).toList := by
  induction start generalizing text with
  | nil => rfl
  | cons c start ih =>
    cases text with
    | nil => rfl
    | cons d text =>
      have first : (literal (c :: start)).rests (d :: text) =
          (if (d == c) = true then [text] else []).flatMap (literal start).rests := rfl
      rw [first, Text.after?]
      by_cases same : c = d
      · simp [same, ih]
      · simp [same, Ne.symm same]

theorem rests_star_char (greedy : Bool) (accepts : Char → Bool) (c : Char) (rest : Text) :
    (star greedy (char accepts)).rests (c :: rest) =
      if accepts c then
        if greedy then (star greedy (char accepts)).rests rest ++ [c :: rest]
        else (c :: rest) :: (star greedy (char accepts)).rests rest
      else [c :: rest] := by
  rw [rests, repeated]
  by_cases accepted : accepts c = true
  · simp [rests, accepted]
  · cases greedy <;> simp [rests, accepted]

theorem rests_star_char_nil (greedy : Bool) (accepts : Char → Bool) :
    (star greedy (char accepts)).rests [] = [[]] := by
  rw [rests, repeated]
  cases greedy <;> rfl

theorem head?_rests_star_greedy (accepts : Char → Bool) (text : Text) :
    ((star true (char accepts)).rests text).head? = some (text.dropWhile accepts) := by
  induction text with
  | nil => rw [rests_star_char_nil, List.dropWhile_nil, List.head?_cons]
  | cons c rest ih =>
    rw [rests_star_char]
    by_cases accepted : accepts c = true
    · simp [accepted, ih]
    · simp [accepted]

end Pattern

end DocMarkup
