import DocMarkup.Proofs.Outline.Forest
import DocMarkup.Proofs.Text.Rejoin

namespace DocMarkup

structure IsInert (c : Char) : Prop where
  opens : opensBracket c = false
  closes : closesBracket c = false
  quote : isQuote c = false
  hash : (c == '#') = false
  escape : (c == '\\') = false

def codeMarks : List Char := ['[', '(', '\x7b', ']', ')', '\x7d', '"', '\x27', '#', '\\']

theorem isInert_of_class {p : Char → Bool} (apart : codeMarks.any p = false) {c : Char}
    (member : p c = true) : IsInert c := by
  have other {d : Char} (mark : d ∈ codeMarks) : (c == d) = false := by
    rw [beq_eq_false_iff_ne]
    intro same
    rw [same] at member
    exact List.any_eq_false.mp apart d mark member
  constructor
  · rw [opensBracket, other (by decide), other (by decide), other (by decide)]
    rfl
  · rw [closesBracket, other (by decide), other (by decide), other (by decide)]
    rfl
  · rw [isQuote, other (by decide), other (by decide)]
    rfl
  · exact other (by decide)
  · exact other (by decide)

theorem isInert_of_isBlank {c : Char} (blank : isBlank c = true) : IsInert c :=
  isInert_of_class (by decide) blank

theorem isInert_of_isWord {c : Char} (word : isWord c = true) : IsInert c :=
  isInert_of_class (by decide) word

theorem opensBracket_cases {c : Char} (opens : opensBracket c = true) :
    c = '[' ∨ c = '(' ∨ c = '\x7b' := by
  simpa [opensBracket, or_assoc] using opens

theorem closesBracket_cases {c : Char} (closes : closesBracket c = true) :
    c = ']' ∨ c = ')' ∨ c = '\x7d' := by
  simpa [closesBracket, or_assoc] using closes

theorem ne_break_of_bracket {c : Char} (bracket : opensBracket c = true ∨ closesBracket c = true) :
    c ≠ '\n' ∧ c ≠ '\r' := by
  constructor
  all_goals
    intro same
    subst same
    rcases bracket with absurd | absurd <;> cases absurd

theorem isQuote_cases {c : Char} (quotes : isQuote c = true) : c = '"' ∨ c = '\x27' := by
  simpa [isQuote] using quotes

namespace SourceState

theorem scan_inert {c : Char} (inert : IsInert c) (depth : Nat) (line : Text) :
    scan 0 depth none (c :: line) = scan 0 depth none line := by
  simp only [scan, inert.hash, inert.quote, inert.escape, bracketDepth, inert.opens, inert.closes,
    Bool.false_and, Bool.false_eq_true, if_false]

theorem scan_opening {c : Char} (opens : opensBracket c = true) (depth : Nat) (line : Text) :
    scan 0 depth none (c :: line) = scan 0 (depth + 1) none line := by
  rcases opensBracket_cases opens with rfl | rfl | rfl <;> rfl

theorem scan_closing {c : Char} (closes : closesBracket c = true) (depth : Nat) (line : Text) :
    scan 0 (depth + 1) none (c :: line) = scan 0 depth none line := by
  rcases closesBracket_cases closes with rfl | rfl | rfl <;> rfl

theorem endLine_append (depth : Nat) (before line : Text) :
    (scan 0 depth none line).endLine (before ++ line) = (scan 0 depth none line).endLine line := by
  cases line with
  | nil => rfl
  | cons c line =>
    have last : (before ++ c :: line).getLast? = (c :: line).getLast? := by
      rw [List.getLast?_append, List.getLast?_cons]
      rfl
    unfold endLine
    rw [last]

end SourceState

namespace Statement

/-- The statements on the lines behind the one in which `rest` begins, if that is read with `depth`
brackets open and outside of literals. The first of those lines has the given number. -/
def startsBehindCode (number depth : Nat) (rest : Text) : List Statement :=
  startsFrom number (SourceState.next ⟨depth, none, false⟩ (Text.cutLine rest).1)
    (Text.lines (Text.cutLine rest).2)

theorem startsBehindCode_append {number depth depth' : Nat} {before rest : Text}
    (onLine : Text.OnLine before rest)
    (reads : SourceState.scan 0 depth none (before ++ (Text.cutLine rest).1) =
      SourceState.scan 0 depth' none (Text.cutLine rest).1) :
    startsBehindCode number depth (before ++ rest) = startsBehindCode number depth' rest := by
  unfold startsBehindCode
  rw [Text.cutLine_append onLine]
  show startsFrom number ((SourceState.scan 0 depth none _).endLine _) _ =
    startsFrom number ((SourceState.scan 0 depth' none _).endLine _) _
  rw [reads, SourceState.endLine_append]

theorem startsBehindCode_cons {number depth depth' : Nat} {c : Char} {rest : Text}
    (inside : c ≠ '\n') (noBreak : c = '\r' → rest.head? ≠ some '\n')
    (reads : ∀ line, SourceState.scan 0 depth none (c :: line) =
      SourceState.scan 0 depth' none line) :
    startsBehindCode number depth (c :: rest) = startsBehindCode number depth' rest := by
  have onLine : Text.OnLine [c] rest := by
    refine ⟨?_, ?_⟩
    · simpa using Ne.symm inside
    · intro same
      exact noBreak (Option.some.inj same)
  exact startsBehindCode_append onLine (reads _)

theorem startsBehindCode_feed (number depth : Nat) (rest : Text) :
    startsBehindCode number (depth + 1) ('\n' :: rest) =
      startsBehindCode (number + 1) (depth + 1) rest := by
  show startsFrom number ⟨depth + 1, none, false⟩ rest.lines = _
  by_cases empty : rest = []
  · subst empty
    rfl
  · rw [Text.lines_eq_cutLine empty, startsFrom]
    rfl

theorem startsBehindCode_comment (number depth : Nat) {note : Text} (inside : '\n' ∉ note)
    (rest : Text) :
    startsBehindCode number depth ('#' :: (note ++ '\n' :: rest)) =
      startsBehindCode number depth ('\n' :: rest) := by
  have cut : Text.cutLine ('#' :: (note ++ '\n' :: rest)) =
      ('#' :: (Text.cutLine (note ++ '\n' :: rest)).1, rest) := by
    rw [Text.cutLine_cons (by decide) (fun same => absurd same (by decide)),
      Text.cutLine_append_snd inside]
    rfl
  unfold startsBehindCode
  rw [cut]
  rfl

end Statement

namespace Outline

theorem takeWhile_append_of_flush {s : Statement} (flush : s.indent = 0) (indent : Nat)
    (before behind : List Statement) :
    (before ++ s :: behind).takeWhile (indent < ·.indent) =
      before.takeWhile (indent < ·.indent) := by
  induction before with
  | nil => simp [flush]
  | cons first before ih => rw [List.cons_append, List.takeWhile_cons, List.takeWhile_cons, ih]

theorem dropWhile_append_of_flush {s : Statement} (flush : s.indent = 0) (indent : Nat)
    (before behind : List Statement) :
    (before ++ s :: behind).dropWhile (indent < ·.indent) =
      before.dropWhile (indent < ·.indent) ++ s :: behind := by
  induction before with
  | nil => simp [flush]
  | cons first before ih =>
    rw [List.cons_append, List.dropWhile_cons, List.dropWhile_cons, ih]
    split <;> rfl

theorem ofStatements_append_of_flush {s : Statement} (flush : s.indent = 0)
    (before behind : List Statement) :
    ofStatements (before ++ s :: behind) =
      ofStatements before ++ ofStatements (s :: behind) := by
  fun_induction ofStatements before with
  | case1 => rfl
  | case2 first rest _ ih =>
    rw [List.cons_append, ofStatements, takeWhile_append_of_flush flush,
      dropWhile_append_of_flush flush, ih, List.cons_append]

end Outline

end DocMarkup
