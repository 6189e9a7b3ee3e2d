import DocMarkup.Text.Blank

namespace DocMarkup

abbrev Text := List Char

scoped instance : Coe String Text := ⟨String.toList⟩

namespace Text

def trimStart (text : Text) : Text := text.dropWhile isBlank

def trimEnd (text : Text) : Text := (text.reverse.dropWhile isBlank).reverse

def trim (text : Text) : Text := trimEnd (trimStart text)

def margin (text : Text) : Text := text.takeWhile isBlank

def indent (text : Text) : Nat := text.margin.length

def byteLength (text : Text) : Nat := text.foldr (fun c n => c.utf8Size + n) 0

def isIndented (text : Text) (n : Nat) : Bool := n < text.length && (text.take n).all isBlank

def unindent : Nat → Text → Text
  | 0, text => text
  | _ + 1, [] => []
  | n + 1, c :: rest => if isBlank c then unindent n rest else c :: rest

def spaces (n : Nat) : Text := List.replicate n ' '

theorem exists_trimEnd_append (text : Text) :
    ∃ blanks, text.trimEnd ++ blanks = text ∧ ∀ c ∈ blanks, isBlank c = true := by
  refine ⟨(text.reverse.takeWhile isBlank).reverse, ?_, ?_⟩
  · rw [trimEnd, ← List.reverse_append, List.takeWhile_append_dropWhile, List.reverse_reverse]
  · intro c member
    exact List.all_eq_true.mp List.all_takeWhile c (List.mem_reverse.mp member)

theorem margin_eq_nil_of_append {start rest : Text} (h : (start ++ rest).margin = []) :
    start.margin = [] := by
  cases start with
  | nil => rfl
  | cons c start => simpa [margin, List.takeWhile_cons] using h

theorem margin_trimStart (text : Text) : text.trimStart.margin = [] := by
  induction text with
  | nil => rfl
  | cons c rest ih =>
    by_cases blank : isBlank c = true
    · rw [trimStart, List.dropWhile_cons_of_pos blank]
      exact ih
    · simp [trimStart, margin, blank]

theorem margin_trim (text : Text) : text.trim.margin = [] := by
  obtain ⟨blanks, eq, -⟩ := exists_trimEnd_append text.trimStart
  exact margin_eq_nil_of_append (eq.symm ▸ text.margin_trimStart)

def startsWith (text start : Text) : Bool := start.isPrefixOf text

def endsWith (text ending : Text) : Bool := ending.isSuffixOf text

def after? : Text → Text → Option Text
  | [], text => some text
  | _ :: _, [] => none
  | s :: start, c :: text => if s = c then after? start text else none

theorem after?_eq_some_iff {start text rest : Text} :
    after? start text = some rest ↔ text = start ++ rest := by
  induction start generalizing text with
  | nil => simp [after?]
  | cons s start ih =>
    cases text with
    | nil => simp [after?]
    | cons c text =>
      simp only [after?, List.cons_append, List.cons.injEq]
      split <;> rename_i h
      · simp [ih, h]
      · simp [Ne.symm h]

def joinWith (separator : Text) (texts : List Text) : Text := separator.intercalate texts

def joinLines (lines : List Text) : Text := joinWith "\n" lines

def consFirst (c : Char) : List Text → List Text
  | [] => [[c]]
  | line :: lines => (c :: line) :: lines

/-- The lines of a text. A line ends at a line feed or at the end of the text; one carriage return
in front of a line feed belongs to the line's end. -/
def lines : Text → List Text
  | [] => []
  | '\n' :: rest => [] :: lines rest
  | '\r' :: '\n' :: rest => [] :: lines rest
  | c :: rest => consFirst c (lines rest)

end Text

end DocMarkup
