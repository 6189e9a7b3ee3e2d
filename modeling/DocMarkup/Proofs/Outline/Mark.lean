import DocMarkup.Proofs.Outline.Targets

namespace DocMarkup

theorem Text.takeWhile_append_cons {p : Char → Bool} {c : Char} (stops : p c = false)
    (text behind : Text) : (text ++ c :: behind).takeWhile p = text.takeWhile p := by
  induction text with
  | nil => exact List.takeWhile_cons_of_neg (by rw [stops]; exact Bool.false_ne_true)
  | cons d text ih => rw [List.cons_append, List.takeWhile_cons, List.takeWhile_cons, ih]

theorem Text.after?_append_cons {keyword : Text} {c : Char} (absent : c ∉ keyword)
    (text behind : Text) :
    after? keyword (text ++ c :: behind) = (after? keyword text).map (· ++ c :: behind) := by
  induction keyword generalizing text with
  | nil => rfl
  | cons k keyword ih =>
    rw [List.mem_cons, not_or] at absent
    cases text with
    | nil => simp [after?, Ne.symm absent.1]
    | cons d text =>
      rw [List.cons_append, after?, after?]
      split
      · exact ih absent.2 text
      · rfl

namespace Assignment

theorem cutFrom_literal {c : Char} (plain : c ≠ '\\') (quote : Char) (depth : Nat) (previous : Char)
    (rest : Text) :
    cutFrom (some quote) depth previous (c :: rest) =
      (cutFrom (if c == quote then none else some quote) depth c rest).map
        fun (before, after) => (c :: before, after) := by
  rw [cutFrom.eq_def]
  simp only [beq_iff_eq, plain, ↓reduceIte]

theorem cutFrom_escape (quote : Char) (depth : Nat) (previous d : Char) (rest : Text) :
    cutFrom (some quote) depth previous ('\\' :: d :: rest) =
      (cutFrom (some quote) depth d rest).map
        fun (before, after) => ('\\' :: d :: before, after) := by
  rw [cutFrom.eq_def]
  rfl

/-- What the cut of a text says of the cut when `c` follows the text: it finds the same equals sign,
or one behind `c`. -/
def Extends (c : Char) (behind : Text) : Option (Text × Text) → Option (Text × Text) → Prop
  | some (before, after), found => found = some (before, after ++ c :: behind)
  | none, found => ∀ before after, found = some (before, after) → c ∈ before

theorem Extends.map {c : Char} {behind : Text} {cut found : Option (Text × Text)}
    (ext : Extends c behind cut found) (front : Text) :
    Extends c behind (cut.map fun (before, after) => (front ++ before, after))
      (found.map fun (before, after) => (front ++ before, after)) := by
  cases cut with
  | some parts =>
    rw [Extends] at ext
    rw [ext]
    rfl
  | none =>
    intro before after same
    obtain ⟨⟨rest, _⟩, same, eq⟩ := Option.map_eq_some_iff.mp same
    cases eq
    exact List.mem_append_right _ (ext _ _ same)

end Assignment

def isMark (c : Char) : Bool := isQuote c || c == '#'

theorem isMark_cases {c : Char} (mark : isMark c = true) : c = '"' ∨ c = '\x27' ∨ c = '#' := by
  simp only [isMark, isQuote, Bool.or_eq_true, beq_iff_eq] at mark
  rcases mark with (same | same) | same
  · exact Or.inl same
  · exact Or.inr (Or.inl same)
  · exact Or.inr (Or.inr same)

section Mark

variable {c : Char} (mark : isMark c = true)

include mark

theorem isBlank_of_isMark : isBlank c = false := by
  rcases isMark_cases mark with rfl | rfl | rfl <;> decide

theorem isWord_of_isMark : isWord c = false := by
  rcases isMark_cases mark with rfl | rfl | rfl <;> decide

theorem startsIdentifier_of_isMark : startsIdentifier c = false := by
  rcases isMark_cases mark with rfl | rfl | rfl <;> decide

theorem isIdentifier_of_mem {text : Text} (member : c ∈ text) : isIdentifier text = false := by
  rw [← Bool.not_eq_true]
  intro named
  have word := Assignment.isWord_of_isIdentifier named c member
  rw [isWord_of_isMark mark] at word
  contradiction

namespace StatementKind

theorem leadingIdentifier?_append_mark (text behind : Text) :
    leadingIdentifier? (text ++ c :: behind) = leadingIdentifier? text := by
  cases text with
  | nil => simp [leadingIdentifier?, startsIdentifier_of_isMark mark]
  | cons d rest =>
    rw [List.cons_append, leadingIdentifier?, Text.takeWhile_append_cons (isWord_of_isMark mark),
      leadingIdentifier?]

theorem not_mem_keyword {keyword : Text} (letters : keyword.all isLetter = true) :
    c ∉ keyword := by
  intro member
  have letter := List.all_eq_true.mp letters c member
  rcases isMark_cases mark with rfl | rfl | rfl <;> cases letter

theorem afterKeyword?_append_mark {keyword : Text} (letters : keyword.all isLetter = true)
    (text behind : Text) :
    afterKeyword? keyword (text ++ c :: behind) =
      (afterKeyword? keyword text).map (· ++ c :: behind) := by
  rw [afterKeyword?, Text.after?_append_cons (not_mem_keyword mark letters), afterKeyword?]
  cases Text.after? keyword text with
  | none => rfl
  | some rest =>
    cases rest with
    | nil =>
      simp only [Option.map_some, List.nil_append, isBlank_of_isMark mark]
      rfl
    | cons d rest =>
      simp only [Option.map_some, List.cons_append]
      split
      · rw [Text.trimStart_append_cons (isBlank_of_isMark mark)]
        rfl
      · rfl

theorem className?_append_mark (text behind : Text) :
    className? (text ++ c :: behind) = className? text := by
  rw [className?, afterKeyword?_append_mark mark rfl, className?]
  cases afterKeyword? "class" text with
  | none => rfl
  | some rest => exact leadingIdentifier?_append_mark mark rest behind

theorem functionName?_append_mark (text behind : Text) :
    functionName? (text ++ c :: behind) = functionName? text := by
  have plain : (afterKeyword? "async" (text ++ c :: behind)).getD (text ++ c :: behind) =
      (afterKeyword? "async" text).getD text ++ c :: behind := by
    rw [afterKeyword?_append_mark mark rfl]
    cases afterKeyword? "async" text <;> rfl
  rw [functionName?, plain, afterKeyword?_append_mark mark rfl, functionName?]
  cases afterKeyword? "def" ((afterKeyword? "async" text).getD text) with
  | none => rfl
  | some rest => exact leadingIdentifier?_append_mark mark rest behind

end StatementKind

namespace Assignment

theorem extends_none (quote : Option Char) (depth : Nat) (previous : Char) (behind : Text) :
    Extends c behind none (cutFrom quote depth previous (c :: behind)) := by
  intro before after found
  cases quote with
  | none =>
    rw [cutFrom_code] at found
    have notEquals : (c == '=') = false := by
      rcases isMark_cases mark with rfl | rfl | rfl <;> rfl
    rw [notEquals] at found
    split at found
    · contradiction
    · obtain ⟨parts, _, eq⟩ := Option.map_eq_some_iff.mp found
      cases eq
      exact List.mem_cons_self
  | some quote =>
    have plain : c ≠ '\\' := by
      rintro rfl
      cases mark
    rw [cutFrom_literal plain] at found
    obtain ⟨parts, _, eq⟩ := Option.map_eq_some_iff.mp found
    cases eq
    exact List.mem_cons_self

theorem head?_append_mark_ne (text behind : Text) :
    ((text ++ c :: behind).head? != some '=') = (text.head? != some '=') := by
  cases text with
  | nil => rcases isMark_cases mark with rfl | rfl | rfl <;> rfl
  | cons d text => rfl

theorem extends_cutFrom (quote : Option Char) (depth : Nat) (previous : Char) (text behind : Text) :
    Extends c behind (cutFrom quote depth previous text)
      (cutFrom quote depth previous (text ++ c :: behind)) := by
  fun_induction cutFrom quote depth previous text with
  | case1 quote depth previous => exact extends_none mark quote depth previous behind
  | case2 depth previous e quote escape =>
    -- The mark is escaped by the last character of the text.
    rw [eq_of_beq escape]
    intro before after found
    rw [List.cons_append, List.nil_append, cutFrom_escape] at found
    obtain ⟨parts, _, eq⟩ := Option.map_eq_some_iff.mp found
    cases eq
    exact List.mem_cons_of_mem _ List.mem_cons_self
  | case3 depth previous e quote escape d rest ih =>
    rw [eq_of_beq escape, List.cons_append, List.cons_append, cutFrom_escape]
    exact ih.map ['\\', d]
  | case4 depth previous e rest quote plain ih =>
    rw [List.cons_append, cutFrom_literal (by simpa using plain)]
    exact ih.map [e]
  | case5 depth previous e rest hash =>
    rw [List.cons_append, cutFrom_code, if_pos hash]
    intro before after found
    contradiction
  | case6 depth previous e rest code bare =>
    rw [List.cons_append, cutFrom_code, if_neg code, head?_append_mark_ne mark, if_pos bare]
    rfl
  | case7 depth previous e rest code joined ih =>
    rw [List.cons_append, cutFrom_code, if_neg code, head?_append_mark_ne mark, if_neg joined]
    exact ih.map [e]

theorem targets_append_mark (text behind : Text) :
    targets (text ++ c :: behind) = targets text := by
  have ext (text : Text) : Extends c behind (cut? text) (cut? (text ++ c :: behind)) :=
    extends_cutFrom mark none 0 ' ' text behind
  induction text using split.induct with
  | case1 text before after cut named ih =>
    have found := ext text
    rw [cut] at found
    rw [targets_of_cut found, targets_of_cut cut, ih]
  | case2 text before after cut other =>
    have found := ext text
    rw [cut] at found
    rw [targets_of_cut found, targets_of_cut cut, if_neg other, if_neg other]
  | case3 text cut =>
    have hidden := ext text
    rw [cut] at hidden
    rw [targets_of_no_cut cut]
    cases found : cut? (text ++ c :: behind) with
    | none => exact targets_of_no_cut found
    | some parts =>
      have member := (Text.mem_trim_iff (isBlank_of_isMark mark)).mpr (hidden _ _ found)
      rw [targets_of_cut found, isIdentifier_of_mem mark member]
      rfl

end Assignment

/-- The kind of a statement is decided in front of the first quote or hash of its text. -/
theorem StatementKind.ofText_append_mark (text behind : Text) :
    ofText (text ++ c :: behind) = ofText text := by
  rw [ofText, className?_append_mark mark, functionName?_append_mark mark,
    Assignment.targets_append_mark mark, ofText]

end Mark

end DocMarkup
