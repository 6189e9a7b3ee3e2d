import DocMarkup.Proofs.Outline.Assigned

namespace DocMarkup

namespace Assignment

/-- What is open behind a piece of code. -/
inductive Opened where
  | code (depth : Nat)
  | literal (quote : Char) (depth : Nat)
  | escape (quote : Char) (depth : Nat)
  | comment

namespace Opened

def next : Opened → Char → Opened
  | code depth, c =>
    if c = '#' then comment else if isQuote c then literal c depth else code (bracketDepth depth c)
  | literal quote depth, c =>
    if c = '\\' then escape quote depth else if c = quote then code depth else literal quote depth
  | escape quote depth, _ => literal quote depth
  | comment, _ => comment

def ofQuote (quote : Option Char) (depth : Nat) : Opened :=
  match quote with
  | none => code depth
  | some quote => literal quote depth

theorem foldl_next_comment (text : Text) : text.foldl next comment = comment := by
  induction text with
  | nil => rfl
  | cons c text ih => exact ih

end Opened

/-- If `opened` is open and `previous` stands in front, the equals sign between the two texts is
outside brackets, literals and comments and part of no operator. -/
structure BareFrom (opened : Opened) (previous : Char) (before after : Text) : Prop where
  outside : before.foldl Opened.next opened = .code 0
  alone : joinsEquals (before.getLast?.getD previous) = false
  single : after.head? ≠ some '='

structure FirstBareFrom (opened : Opened) (previous : Char) (before after : Text) : Prop where
  bare : BareFrom opened previous before after
  first : ∀ front behind, before = front ++ '=' :: behind →
    ¬ BareFrom opened previous front (behind ++ '=' :: after)

def FirstBare (before after : Text) : Prop := FirstBareFrom (.code 0) ' ' before after

section Search

variable {opened : Opened} {previous c : Char} {before rest after : Text}

theorem bareFrom_cons :
    BareFrom opened previous (c :: before) after ↔ BareFrom (opened.next c) c before after := by
  have last : (c :: before).getLast?.getD previous = before.getLast?.getD c := by
    rw [List.getLast?_cons]
    rfl
  constructor
  · rintro ⟨outside, alone, single⟩
    exact ⟨outside, last ▸ alone, single⟩
  · rintro ⟨outside, alone, single⟩
    exact ⟨outside, last.symm ▸ alone, single⟩

theorem firstBareFrom_nil :
    FirstBareFrom opened previous [] after ↔ BareFrom opened previous [] after := by
  constructor
  · exact FirstBareFrom.bare
  · intro bare
    refine ⟨bare, fun front behind same => ?_⟩
    cases front <;> cases same

theorem firstBareFrom_cons :
    FirstBareFrom opened previous (c :: before) after ↔
      (c = '=' → ¬ BareFrom opened previous [] (before ++ '=' :: after)) ∧
        FirstBareFrom (opened.next c) c before after := by
  constructor
  · rintro ⟨bare, first⟩
    refine ⟨fun equals => first [] before (by rw [equals]; rfl), bareFrom_cons.mp bare, ?_⟩
    intro front behind same early
    exact first (c :: front) behind (by rw [same]; rfl) (bareFrom_cons.mpr early)
  · rintro ⟨here, bare, first⟩
    refine ⟨bareFrom_cons.mpr bare, ?_⟩
    intro front behind same early
    cases front with
    | nil =>
      obtain ⟨equals, rfl⟩ := List.cons.inj same
      exact here equals early
    | cons d front =>
      obtain ⟨rfl, parts⟩ := List.cons.inj same
      exact first front behind parts (bareFrom_cons.mp early)

def Finds (opened : Opened) (previous : Char) (text : Text) (answer : Option (Text × Text)) :
    Prop :=
  ∀ before after, answer = some (before, after) ↔
    text = before ++ '=' :: after ∧ FirstBareFrom opened previous before after

theorem finds_nil : Finds opened previous [] none := by
  intro before after
  simp

theorem finds_comment (text : Text) : Finds .comment previous text none := by
  intro before after
  constructor
  · nofun
  · rintro ⟨-, firstBare⟩
    have outside := firstBare.bare.outside
    rw [Opened.foldl_next_comment] at outside
    cases outside

theorem Finds.cons {answer : Option (Text × Text)} (found : Finds (opened.next c) c rest answer)
    (other : c = '=' → ¬ BareFrom opened previous [] rest) :
    Finds opened previous (c :: rest)
      (answer.map fun (before, after) => (c :: before, after)) := by
  intro before after
  rw [Option.map_eq_some_iff]
  cases before with
  | nil =>
    constructor
    · rintro ⟨parts, -, same⟩
      cases same
    · rintro ⟨same, firstBare⟩
      obtain ⟨equals, rfl⟩ := List.cons.inj same
      exact absurd firstBare.bare (other equals)
  | cons d before =>
    constructor
    · rintro ⟨parts, cut, same⟩
      cases same
      obtain ⟨rfl, firstBare⟩ := (found _ _).mp cut
      exact ⟨rfl, firstBareFrom_cons.mpr ⟨other, firstBare⟩⟩
    · rintro ⟨same, firstBare⟩
      obtain ⟨rfl, rfl⟩ := List.cons.inj same
      exact ⟨_, (found before after).mpr ⟨rfl, (firstBareFrom_cons.mp firstBare).2⟩, rfl⟩

theorem finds_here (bare : BareFrom opened previous [] rest) :
    Finds opened previous ('=' :: rest) (some ([], rest)) := by
  intro before after
  constructor
  · intro same
    cases same
    exact ⟨rfl, firstBareFrom_nil.mpr bare⟩
  · rintro ⟨same, firstBare⟩
    cases before with
    | nil =>
      cases same
      rfl
    | cons d before =>
      obtain ⟨rfl, rfl⟩ := List.cons.inj same
      exact absurd bare ((firstBareFrom_cons.mp firstBare).1 rfl)

end Search

theorem next_code {c : Char} (code : c ≠ '#') (depth : Nat) :
    (Opened.code depth).next c =
      .ofQuote (if isQuote c then some c else none) (bracketDepth depth c) := by
  rw [Opened.next, if_neg code]
  by_cases quotes : isQuote c = true
  · have same : bracketDepth depth c = depth := by
      rcases isQuote_cases quotes with rfl | rfl <;> rfl
    rw [if_pos quotes, if_pos quotes, same]
    rfl
  · rw [if_neg quotes, if_neg quotes]
    rfl

theorem next_literal {c : Char} (plain : c ≠ '\\') (quote : Char) (depth : Nat) :
    (Opened.literal quote depth).next c =
      .ofQuote (if c == quote then none else some quote) depth := by
  rw [Opened.next, if_neg plain]
  by_cases same : c = quote
  · rw [if_pos same, if_pos (beq_iff_eq.mpr same)]
    rfl
  · rw [if_neg same, if_neg (by simpa using same)]
    rfl

theorem finds_cutFrom (quote : Option Char) (depth : Nat) (previous : Char) (text : Text) :
    Finds (.ofQuote quote depth) previous text (cutFrom quote depth previous text) := by
  have hidden {opened : Opened} {previous c : Char} {rest : Text} (inside : opened ≠ .code 0) :
      c = '=' → ¬ BareFrom opened previous [] rest :=
    fun _ bare => inside bare.outside
  fun_induction cutFrom quote depth previous text with
  | case1 => exact finds_nil
  | case2 depth previous c quote escape =>
    exact Finds.cons finds_nil (hidden (by simp [Opened.ofQuote]))
  | case3 depth previous c quote escape d rest ih =>
    rw [beq_iff_eq] at escape
    subst escape
    have inner : Finds (.escape quote depth) '\\' (d :: rest) _ := Finds.cons ih (hidden (by simp))
    have whole : Finds (.literal quote depth) previous ('\\' :: d :: rest) _ :=
      Finds.cons inner (hidden (by simp))
    rwa [Option.map_map] at whole
  | case4 depth previous c rest quote plain ih =>
    rw [← next_literal (by simpa using plain)] at ih
    exact ih.cons (hidden (by simp))
  | case5 depth previous c rest comment =>
    rw [beq_iff_eq] at comment
    subst comment
    have behind : Finds ((Opened.code depth).next '#') '#' rest none := finds_comment rest
    exact behind.cons fun same => absurd same (by decide)
  | case6 depth previous c rest code bare =>
    simp only [Bool.and_eq_true, beq_iff_eq, bne_iff_ne, Bool.not_eq_true'] at bare
    obtain ⟨⟨⟨rfl, rfl⟩, single⟩, alone⟩ := bare
    exact finds_here ⟨rfl, alone, single⟩
  | case7 depth previous c rest code other ih =>
    rw [← next_code (by simpa using code)] at ih
    refine ih.cons fun equals bare => other ?_
    obtain ⟨outside, alone, single⟩ := bare
    cases outside
    have apart : joinsEquals previous = false := alone
    rw [equals, bne_iff_ne.mpr single, apart]
    rfl

theorem cut?_eq_some_iff {text before after : Text} :
    cut? text = some (before, after) ↔
      text = before ++ '=' :: after ∧ FirstBare before after :=
  finds_cutFrom none 0 ' ' text before after

/-- In front of the first bare equals sign, if there is one, stands no name. -/
def IsValue (text : Text) : Prop :=
  ∀ before after, text = before ++ '=' :: after → FirstBare before after →
    isIdentifier before.trim = false

theorem split_eq_iff_isValue {text : Text} : split text = ([], text) ↔ IsValue text := by
  constructor
  · intro whole before after same firstBare
    have cut := cut?_eq_some_iff.mpr ⟨same, firstBare⟩
    rw [split_of_cut cut] at whole
    rw [← Bool.not_eq_true]
    intro named
    rw [if_pos named] at whole
    cases whole
  · intro isValue
    cases cut : cut? text with
    | none => exact split_of_no_cut cut
    | some parts =>
      obtain ⟨before, after⟩ := parts
      obtain ⟨same, firstBare⟩ := cut?_eq_some_iff.mp cut
      have unnamed := isValue before after same firstBare
      rw [split_of_cut cut, unnamed]
      rfl

theorem targets_eq_nil_iff {text : Text} : targets text = [] ↔ IsValue text := by
  rw [← split_eq_iff_isValue]
  constructor
  · exact split_of_no_targets
  · intro whole
    rw [targets, whole]

theorem IsValue.cons_space {text : Text} (isValue : IsValue text) : IsValue (' ' :: text) := by
  intro before after same firstBare
  have cut := cut?_eq_some_iff.mpr ⟨same, firstBare⟩
  rw [cut?, cutFrom_of_isNamePart (by decide)] at cut
  obtain ⟨⟨front, behind⟩, found, parts⟩ := Option.map_eq_some_iff.mp cut
  cases parts
  obtain ⟨whole, first⟩ := cut?_eq_some_iff.mp found
  exact isValue front after whole first

theorem Gives.bare {value text : Text} {names : List Text} (gives : Gives value names text) :
    value.head? ≠ some '=' := by
  induction gives with
  | last _ bare => exact bare
  | more _ _ _ ih => exact ih

theorem gives_split {text : Text} (assigned : targets text ≠ []) :
    Gives (split text).2 (targets text) text ∧ IsValue (split text).2 := by
  induction text using split.induct with
  | case1 text before after cut named ih =>
    have bare := head?_ne_of_cutFrom cut
    rw [split_of_cut cut, if_pos named, targets_of_cut cut, if_pos named, ← cut?_append cut]
    by_cases last : targets after = []
    · have isValue := targets_eq_nil_iff.mp last
      rw [last, split_eq_iff_isValue.mpr isValue]
      exact ⟨.last named bare, isValue⟩
    · obtain ⟨gives, isValue⟩ := ih last
      exact ⟨.more named bare gives, isValue⟩
  | case2 text before after cut unnamed =>
    rw [targets_of_cut cut, if_neg unnamed] at assigned
    exact absurd rfl assigned
  | case3 text none => exact absurd (targets_of_no_cut none) assigned

def chained (names : List Text) (value : Text) : Text := names.foldr assigned value

theorem gives_chained {names : List Text} (nonempty : names ≠ [])
    (named : ∀ name ∈ names, isIdentifier name = true) (value : Text) {lead : Text}
    (blank : lead.IsMargin) : Gives (' ' :: value) names (lead ++ chained names value) := by
  have space (rest : Text) : (' ' :: rest).head? ≠ some '=' :=
    fun same => absurd (Option.some.inj same) (by decide)
  induction names generalizing lead with
  | nil => exact absurd rfl nonempty
  | cons name names ih =>
    obtain ⟨first, others⟩ := List.forall_mem_cons.mp named
    have trimmed : Text.trim (lead ++ (name ++ [' '])) = name := by
      rw [Text.trim_append blank, trim_name_append first]
    have target : isIdentifier (Text.trim (lead ++ (name ++ [' ']))) = true := trimmed.symm ▸ first
    have parts : lead ++ chained (name :: names) value =
        (lead ++ (name ++ [' '])) ++ '=' :: ' ' :: chained names value := by
      simp [chained, assigned]
    rw [parts]
    by_cases last : names = []
    · subst last
      have gives := Gives.last target (space value)
      rwa [trimmed] at gives
    · have gives := Gives.more target (space _)
        (ih last others (Text.isMargin_spaces 1) : Gives _ _ (' ' :: chained names value))
      rwa [trimmed] at gives

theorem margin_chained {names : List Text} (nonempty : names ≠ [])
    (named : ∀ name ∈ names, isIdentifier name = true) (value : Text) :
    Text.margin (chained names value) = [] := by
  obtain ⟨name, names, rfl⟩ := List.exists_cons_of_ne_nil nonempty
  exact margin_assigned (named name List.mem_cons_self) _

/-- The targets of a chain are all its names, and its value stands behind the last of their equals
signs. Any text with targets is a chain, with other blanks around the names perhaps; it has none if
no name stands in front of its first bare equals sign. -/
theorem chained_targets :
    (∀ (names : List Text) (value : Text), names ≠ [] →
      (∀ name ∈ names, isIdentifier name = true) → IsValue value →
        StatementKind.ofText (chained names value) = .assignment names ∧
          value? (chained names value) = some (' ' :: value)) ∧
      (∀ text, targets text ≠ [] → ∃ value, value? text = some value ∧
        Gives value (targets text) text ∧ value.head? ≠ some '=' ∧ IsValue value) ∧
      ∀ text, targets text = [] ↔ IsValue text := by
  refine ⟨?_, ?_, fun text => targets_eq_nil_iff⟩
  · intro names value nonempty named isValue
    have gives := gives_chained nonempty named value (Text.isMargin_spaces 0)
    have whole := split_eq_iff_isValue.mpr isValue.cons_space
    exact ⟨gives.ofText whole (margin_chained nonempty named value), gives.value? whole⟩
  · intro text assigned
    obtain ⟨gives, isValue⟩ := gives_split assigned
    have found : value? text = some (split text).2 := by
      rw [value?, if_neg (by simpa using assigned)]
    exact ⟨_, found, gives, gives.bare, isValue⟩

def sampleValue : Text := "lambda y=2: y + '='"

def sampleAssignment : Text := "a\t=_b1= (y == 2)"

theorem chained_sampleValue :
    IsValue sampleValue ∧
      StatementKind.ofText "a = _b1 = lambda y=2: y + '='" = .assignment ["a", "_b1"] ∧
      value? "a = _b1 = lambda y=2: y + '='" = some " lambda y=2: y + '='" ∧
      targets sampleAssignment ≠ [] ∧ Gives " (y == 2)" ["a", "_b1"] sampleAssignment := by
  obtain ⟨chain, shape, noTargets⟩ := chained_targets
  have isValue : IsValue sampleValue := (noTargets sampleValue).mp (by decide +kernel)
  obtain ⟨kind, value⟩ := chain ["a", "_b1"] sampleValue (by decide) (by decide) isValue
  have all : targets sampleAssignment = ["a", "_b1"] := by decide +kernel
  have assigned : targets sampleAssignment ≠ [] := by simp [all]
  obtain ⟨behind, found, gives, -⟩ := shape sampleAssignment assigned
  have same : value? sampleAssignment = some " (y == 2)" := by decide +kernel
  rw [all] at gives
  rw [same] at found
  exact ⟨isValue, kind, value, assigned, Option.some.inj found ▸ gives⟩

end Assignment

end DocMarkup
