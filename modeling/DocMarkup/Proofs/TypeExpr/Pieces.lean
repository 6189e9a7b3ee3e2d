import DocMarkup.TypeExpr
import DocMarkup.Proofs.Text.Trim

namespace DocMarkup

namespace TypeExpr

def openBehind (text : Text) : Nat := text.foldl bracketDepth 0

theorem openBehind_append (text : Text) (c : Char) :
    openBehind (text ++ [c]) = bracketDepth (openBehind text) c :=
  List.foldl_concat bracketDepth 0 c text

section Separator

variable (separates : Char → Bool)

def IsCutAt (before : Text) (c : Char) : Prop := openBehind before = 0 ∧ separates c = true

def IsUncut (before piece : Text) : Prop :=
  ∀ front c back, piece = front ++ c :: back → ¬ IsCutAt separates (before ++ front) c

/-- The pieces that a text behind `before` has between its separators outside brackets. -/
inductive Cuts : Text → Text → List Text → Prop where
  | whole {before piece : Text} : IsUncut separates before piece → Cuts before piece [piece]
  | cut {before piece : Text} {c : Char} {rest : Text} {pieces : List Text} :
      IsUncut separates before piece → IsCutAt separates (before ++ piece) c →
      Cuts (before ++ piece ++ [c]) rest pieces → Cuts before (piece ++ c :: rest) (piece :: pieces)

variable {separates} {before : Text}

theorem isUncut_nil : IsUncut separates before [] := by
  intro front c back eq
  simp at eq

theorem isUncut_cons {c : Char} {piece : Text} :
    IsUncut separates before (c :: piece) ↔
      ¬ IsCutAt separates before c ∧ IsUncut separates (before ++ [c]) piece := by
  constructor
  · intro uncut
    refine ⟨?_, ?_⟩
    · simpa using uncut [] c piece rfl
    · rintro front d back rfl
      simpa using uncut (c :: front) d back rfl
  · rintro ⟨first, others⟩ front d back eq
    rcases List.cons_eq_append_iff.mp eq with ⟨rfl, same⟩ | ⟨front, rfl, rfl⟩
    · cases same
      simpa using first
    · simpa using others front d back rfl

theorem cuts_nil {pieces : List Text} : Cuts separates before [] pieces ↔ pieces = [[]] := by
  constructor
  · generalize empty : ([] : Text) = text
    rintro (_ | _)
    · rw [← empty]
    · simp at empty
  · rintro rfl
    exact .whole isUncut_nil

theorem cuts_cons_of_isCutAt {c : Char} {rest : Text} {pieces : List Text}
    (separated : IsCutAt separates before c) :
    Cuts separates before (c :: rest) pieces ↔
      ∃ others, pieces = [] :: others ∧ Cuts separates (before ++ [c]) rest others := by
  constructor
  · generalize eq : c :: rest = text
    rintro (uncut | ⟨uncut, cut, cuts⟩)
    · subst eq
      exact absurd separated (isUncut_cons.mp uncut).1
    · rename_i piece d rest' others
      rcases List.cons_eq_append_iff.mp eq with ⟨rfl, same⟩ | ⟨piece, rfl, rfl⟩
      · cases same
        exact ⟨others, rfl, by simpa using cuts⟩
      · exact absurd separated (isUncut_cons.mp uncut).1
  · rintro ⟨others, rfl, cuts⟩
    have uncut : IsUncut separates before [] := isUncut_nil
    exact .cut uncut (by simpa using separated) (by simpa using cuts)

theorem cuts_cons_of_not {c : Char} {rest : Text} {pieces : List Text}
    (joined : ¬ IsCutAt separates before c) :
    Cuts separates before (c :: rest) pieces ↔
      ∃ others, pieces = Text.consFirst c others ∧ Cuts separates (before ++ [c]) rest others := by
  constructor
  · generalize eq : c :: rest = text
    rintro (uncut | ⟨uncut, cut, cuts⟩)
    · subst eq
      exact ⟨[rest], rfl, .whole (isUncut_cons.mp uncut).2⟩
    · rename_i piece d rest' others
      rcases List.cons_eq_append_iff.mp eq with ⟨rfl, same⟩ | ⟨piece, rfl, rfl⟩
      · cases same
        exact absurd (by simpa using cut) joined
      · exact ⟨piece :: others, rfl,
          .cut (isUncut_cons.mp uncut).2 (by simpa using cut) (by simpa using cuts)⟩
  · rintro ⟨others, rfl, cuts⟩
    cases cuts with
    | whole uncut => exact .whole (isUncut_cons.mpr ⟨joined, uncut⟩)
    | cut uncut cut cuts =>
      exact .cut (isUncut_cons.mpr ⟨joined, uncut⟩) (by simpa using cut) (by simpa using cuts)

/-- A text has its pieces in one way only, and they are what the splitter gives. -/
theorem cuts_iff (loose : ∀ c, separates c = true → opensBracket c = false ∧ closesBracket c = false)
    {text : Text} {pieces : List Text} :
    Cuts separates before text pieces ↔
      pieces = splitAtDepth separates (openBehind before) text := by
  induction text generalizing before pieces with
  | nil => exact cuts_nil
  | cons c rest ih =>
    rw [splitAtDepth]
    by_cases separated : IsCutAt separates before c
    · obtain ⟨outside, separator⟩ := separated
      obtain ⟨opens, closes⟩ := loose c separator
      have behind : openBehind (before ++ [c]) = 0 := by
        simp [openBehind_append, bracketDepth, opens, closes, outside]
      rw [cuts_cons_of_isCutAt ⟨outside, separator⟩]
      simp [ih, behind, outside, separator, opens, closes]
    · have kept : (openBehind before == 0 && separates c && !opensBracket c && !closesBracket c) =
          false := by
        by_contra cut
        simp only [Bool.not_eq_false, Bool.and_eq_true, beq_iff_eq] at cut
        exact separated cut.1.1
      rw [cuts_cons_of_not separated, kept]
      simp [ih, openBehind_append]

end Separator

theorem mem_of_mem_consFirst {c d : Char} {pieces : List Text} {piece : Text}
    (member : piece ∈ Text.consFirst c pieces) (inside : d ∈ piece) :
    d = c ∨ ∃ other ∈ pieces, d ∈ other := by
  cases pieces with
  | nil =>
    rw [Text.consFirst, List.mem_singleton] at member
    subst member
    exact .inl (List.mem_singleton.mp inside)
  | cons first others =>
    rcases List.mem_cons.mp member with rfl | member
    · rcases List.mem_cons.mp inside with rfl | inside
      · exact .inl rfl
      · exact .inr ⟨first, List.mem_cons_self, inside⟩
    · exact .inr ⟨piece, List.mem_cons_of_mem _ member, inside⟩

theorem mem_of_mem_splitAtDepth {separates : Char → Bool} {depth : Nat} {text piece : Text}
    {c : Char} (member : piece ∈ splitAtDepth separates depth text) (inside : c ∈ piece) :
    c ∈ text := by
  induction text generalizing depth piece with
  | nil =>
    rw [splitAtDepth, List.mem_singleton] at member
    rwa [← member]
  | cons d rest ih =>
    rw [splitAtDepth] at member
    split at member
    · rcases List.mem_cons.mp member with rfl | member
      · cases inside
      · exact List.mem_cons_of_mem _ (ih member inside)
    · rcases mem_of_mem_consFirst member inside with rfl | ⟨other, member, inside⟩
      · exact List.mem_cons_self
      · exact List.mem_cons_of_mem _ (ih member inside)

structure Reading where
  tokens : List Text
  suffixes : List Text
  deriving DecidableEq

/-- The tokens are the words of the clause before the first comma, the suffixes the clauses behind
it without the blanks around them; empty words and empty clauses do not count. -/
def Reads (expr : Text) (reading : Reading) : Prop :=
  ∃ primary clauses words, Cuts (· == ',') [] expr (primary :: clauses) ∧
    Cuts isBlank [] primary words ∧ reading.tokens = words.filter (· ≠ []) ∧
    reading.suffixes = (clauses.map Text.trim).filter (· ≠ [])

def reading (expr : Text) : Reading := ⟨tokens expr, suffixes expr⟩

theorem loose_comma (c : Char) (comma : (c == ',') = true) :
    opensBracket c = false ∧ closesBracket c = false := by
  rw [eq_of_beq comma]
  decide

theorem not_isBlank_of_bracket {c : Char} (bracket : opensBracket c = true ∨ closesBracket c = true) :
    isBlank c = false := by
  simp only [opensBracket, closesBracket, Bool.or_eq_true, beq_iff_eq] at bracket
  rcases bracket with ((rfl | rfl) | rfl) | ((rfl | rfl) | rfl) <;> decide

theorem loose_blank (c : Char) (blank : isBlank c = true) :
    opensBracket c = false ∧ closesBracket c = false := by
  constructor
  · rw [← Bool.not_eq_true]
    intro opens
    rw [not_isBlank_of_bracket (.inl opens)] at blank
    contradiction
  · rw [← Bool.not_eq_true]
    intro closes
    rw [not_isBlank_of_bracket (.inr closes)] at blank
    contradiction

theorem splitAtDepth_ne_nil (separates : Char → Bool) (depth : Nat) (text : Text) :
    splitAtDepth separates depth text ≠ [] := by
  cases text with
  | nil => exact List.cons_ne_nil [] []
  | cons c rest =>
    rw [splitAtDepth]
    split
    · exact List.cons_ne_nil _ _
    · unfold Text.consFirst
      split <;> exact List.cons_ne_nil _ _

theorem clauses_ne_nil (expr : Text) : clauses expr ≠ [] := splitAtDepth_ne_nil (· == ',') 0 expr

theorem reads_iff {expr : Text} {read : Reading} : Reads expr read ↔ read = reading expr := by
  have parts : clauses expr = (clauses expr).headD [] :: (clauses expr).tail := by
    obtain ⟨primary, others, eq⟩ := List.exists_cons_of_ne_nil (clauses_ne_nil expr)
    rw [eq]
    rfl
  constructor
  · rintro ⟨primary, others, words, commas, blanks, tokens, suffixes⟩
    have split : primary :: others = clauses expr := (cuts_iff loose_comma).mp commas
    have spaced : words = splitTopLevel isBlank primary := (cuts_iff loose_blank).mp blanks
    obtain ⟨rfl, rfl⟩ := List.cons.inj (split.trans parts)
    obtain ⟨readTokens, readSuffixes⟩ := read
    subst tokens suffixes spaced
    rfl
  · rintro rfl
    exact ⟨_, _, _, (cuts_iff loose_comma).mpr parts.symm, (cuts_iff loose_blank).mpr rfl, rfl, rfl⟩

end TypeExpr

end DocMarkup
