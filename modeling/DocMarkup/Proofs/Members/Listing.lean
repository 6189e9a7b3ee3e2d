import DocMarkup.Members.Basic
import DocMarkup.Proofs.Members.Display
import DocMarkup.Proofs.Outline.Assigned

namespace DocMarkup

open StringList

namespace SourceState

theorem isTripled_cons_of_ne {c d : Char} (other : d ≠ c) (rest : Text) :
    isTripled c (d :: rest) = false := by
  unfold isTripled
  rw [beq_eq_false_iff_ne]
  intro same
  exact other (List.cons.inj same).1

theorem isTripled_escaped {quote : Char} (quotes : isQuote quote = true) (item : Text)
    {line : Text} (other : line.head? ≠ some quote) :
    isTripled quote (escaped quote item ++ quote :: line) = false := by
  cases item with
  | nil =>
    show isTripled quote (quote :: line) = false
    unfold isTripled
    rw [beq_eq_false_iff_ne]
    intro same
    apply other
    cases line with
    | nil => cases same
    | cons d line => exact congrArg some (List.cons.inj (List.cons.inj same).2).1
  | cons c item =>
    rw [escaped_cons]
    by_cases marked : c = '\\' ∨ c = quote
    · rw [if_pos marked]
      apply isTripled_cons_of_ne
      rintro rfl
      cases quotes
    · rw [if_neg marked]
      exact isTripled_cons_of_ne (not_or.mp marked).2 _

theorem scan_escaped {quote : Char} (quotes : isQuote quote = true) (item : Text) (depth : Nat)
    (line : Text) :
    scan 0 depth (some ⟨quote, false⟩) (escaped quote item ++ quote :: line) =
      scan 0 depth none line := by
  have plain : quote ≠ '\\' := by
    rintro rfl
    cases quotes
  induction item with
  | nil =>
    show scan 0 depth (some ⟨quote, false⟩) (quote :: line) = _
    simp [scan, plain]
  | cons c item ih =>
    rw [escaped_cons]
    by_cases marked : c = '\\' ∨ c = quote
    · rw [if_pos marked]
      simpa [scan] using ih
    · rw [if_neg marked]
      rw [not_or] at marked
      simpa [scan, marked] using ih

theorem scan_quoted {quote : Char} (quotes : isQuote quote = true) (item : Text) (depth : Nat)
    {line : Text} (other : line.head? ≠ some quote) :
    scan 0 depth none (quoted quote item ++ line) = scan 0 depth none line := by
  have hash : (quote == '#') = false := by
    rcases isQuote_cases quotes with rfl | rfl <;> rfl
  rw [quoted, List.cons_append, List.append_assoc, List.singleton_append,
    ← scan_escaped quotes item depth line]
  simp only [scan, hash, quotes, isTripled_escaped quotes item other, Bool.false_eq_true, if_false,
    if_true]

end SourceState

namespace Statement

theorem startsBehindCode_blank (number depth : Nat) {c : Char} (blank : isBlank c = true)
    (rest : Text) :
    startsBehindCode number (depth + 1) (c :: rest) =
      startsBehindCode (number + List.count '\n' [c]) (depth + 1) rest := by
  by_cases feed : c = '\n'
  · subst feed
    exact startsBehindCode_feed number depth rest
  · rw [List.count_singleton, if_neg (by simpa using feed)]
    by_cases returns : c = '\r' ∧ rest.head? = some '\n'
    · obtain ⟨rfl, first⟩ := returns
      obtain ⟨behind, rfl⟩ := List.head?_eq_some_iff.mp first
      rfl
    · exact startsBehindCode_cons feed (fun same first => returns ⟨same, first⟩)
        (SourceState.scan_inert (isInert_of_isBlank blank) _)

theorem startsBehindCode_padding (number depth : Nat) {padding : Text}
    (isPadding : IsPadding padding) (rest : Text) :
    startsBehindCode number (depth + 1) (padding ++ rest) =
      startsBehindCode (number + padding.count '\n') (depth + 1) rest := by
  induction isPadding generalizing number with
  | nil => rfl
  | @blank c text blank _ ih =>
    have feeds : List.count '\n' (c :: text) = List.count '\n' [c] + text.count '\n' := by
      rw [← List.count_append, List.singleton_append]
    rw [List.cons_append, startsBehindCode_blank number depth blank, ih, feeds, Nat.add_assoc]
  | @comment note text inside _ ih =>
    have feeds : List.count '\n' ('#' :: (note ++ '\n' :: text)) = 1 + text.count '\n' := by
      rw [List.count_cons_of_ne (by decide), List.count_append, List.count_eq_zero.mpr inside,
        List.count_cons_self]
      omega
    rw [List.cons_append, List.append_assoc, List.cons_append, startsBehindCode_comment _ _ inside,
      startsBehindCode_feed, ih, feeds, Nat.add_assoc]

theorem startsBehindCode_quoted (number depth : Nat) {quote : Char} (quotes : isQuote quote = true)
    {item : Text} (inside : '\n' ∉ item) {rest : Text}
    (other : ∀ c ∈ rest.head?, isQuote c = false) :
    startsBehindCode number depth (quoted quote item ++ rest) =
      startsBehindCode number depth rest := by
  apply startsBehindCode_append (onLine_quoted quotes inside rest)
  apply SourceState.scan_quoted quotes
  intro same
  have plain := other quote (Text.mem_head?_of_cutLine same)
  rw [quotes] at plain
  contradiction

theorem startsBehindCode_element (number depth : Nat) {item text : Text}
    (element : IsElement item text) {rest : Text} (other : ∀ c ∈ rest.head?, isQuote c = false) :
    startsBehindCode number (depth + 1) (text ++ rest) =
      startsBehindCode (number + text.count '\n') (depth + 1) rest := by
  obtain @⟨quote, before, behind, quotes, inside, isBefore, isBehind⟩ := element
  have feeds : List.count '\n' (before ++ quoted quote item ++ behind) =
      before.count '\n' + behind.count '\n' := by
    rw [List.count_append, List.count_append,
      List.count_eq_zero.mpr (onLine_quoted quotes inside rest).inside, Nat.add_zero]
  rw [List.append_assoc, List.append_assoc, startsBehindCode_padding _ _ isBefore,
    startsBehindCode_quoted _ _ quotes inside (head?_padding_append isBehind other),
    startsBehindCode_padding _ _ isBehind, feeds, Nat.add_assoc]

theorem startsBehindCode_lists (number : Nat) {items : List Text} {text : Text}
    (lists : Lists items text) {closing : Char} (closes : closesBracket closing = true)
    (rest : Text) :
    startsBehindCode number 1 (text ++ closing :: rest) =
      startsBehindCode (number + text.count '\n') 0 rest := by
  have inside := ne_break_of_bracket (Or.inr closes)
  have ends (number : Nat) :
      startsBehindCode number 1 (closing :: rest) = startsBehindCode number 0 rest :=
    startsBehindCode_cons inside.1 (fun same => absurd same inside.2)
      (SourceState.scan_closing closes 0)
  have noQuote : ∀ c ∈ (closing :: rest).head?, isQuote c = false := by
    rintro _ ⟨⟩
    rcases closesBracket_cases closes with rfl | rfl | rfl <;> rfl
  induction lists generalizing number with
  | nothing isPadding => rw [startsBehindCode_padding _ _ isPadding, ends]
  | last element => rw [startsBehindCode_element _ _ element noQuote, ends]
  | @more item text behind items element _ ih =>
    have comma (number : Nat) : startsBehindCode number 1 (',' :: (behind ++ closing :: rest)) =
        startsBehindCode number 1 (behind ++ closing :: rest) :=
      startsBehindCode_cons (by decide) (fun same => absurd same (by decide))
        (SourceState.scan_inert isInert_comma 1)
    have other : ∀ c ∈ (',' :: (behind ++ closing :: rest)).head?, isQuote c = false := by
      rintro _ ⟨⟩
      rfl
    rw [List.append_assoc, List.cons_append, startsBehindCode_element _ _ element other, comma, ih,
      List.count_append, List.count_cons_of_ne (by decide), Nat.add_assoc]

theorem startsBehindCode_display (number : Nat) {items : List Text} {display : Text}
    (isDisplay : IsDisplay items display) (rest : Text) :
    startsBehindCode number 0 (display ++ rest) =
      startsBehindCode (number + display.count '\n') 0 rest := by
  obtain ⟨⟨opening, closing⟩, member, body, lists, rfl⟩ := isDisplay
  obtain ⟨opens, closes⟩ := opensBracket_of_mem member
  have inside := ne_break_of_bracket (Or.inl opens)
  have opened : startsBehindCode number 0 (opening :: (body ++ closing :: rest)) =
      startsBehindCode number 1 (body ++ closing :: rest) :=
    startsBehindCode_cons inside.1 (fun same => absurd same inside.2)
      (SourceState.scan_opening opens 0)
  have feeds : List.count '\n' (opening :: (body ++ [closing])) = body.count '\n' := by
    rw [List.count_cons_of_ne inside.1, List.count_append,
      List.count_cons_of_ne (ne_break_of_bracket (Or.inr closes)).1]
    rfl
  rw [List.cons_append, List.append_assoc, List.singleton_append, opened,
    startsBehindCode_lists _ lists closes, feeds]

end Statement

namespace StringList

theorem IsDisplay.exists_opening {items : List Text} {display : Text}
    (isDisplay : IsDisplay items display) (rest : Text) :
    ∃ opening line, opensBracket opening = true ∧
      (Text.cutLine (display ++ rest)).1 = opening :: line := by
  obtain ⟨⟨opening, closing⟩, member, body, -, rfl⟩ := isDisplay
  have opens := (opensBracket_of_mem member).1
  have inside := ne_break_of_bracket (Or.inl opens)
  refine ⟨opening, (Text.cutLine (body ++ [closing] ++ rest)).1, opens, ?_⟩
  rw [List.cons_append, Text.cutLine_cons inside.1 (fun same => absurd same inside.2)]

end StringList

namespace ModuleMembers

/-- The names of the lists, with what a module keeps under them. -/
def listNames : List (Text × (ModuleMembers → List Text)) :=
  [("__autodoc_excludes__", excludes), ("__deprecated__", deprecated)]

def IsLast (name source : Text) (line : Nat) : Prop :=
  ∀ root ∈ Outline.ofSource source, line < root.line → assigns name root = false

theorem listFrom_literal {outline : Outline} {lines : List Text} {name line value : Text}
    {node : OutlineNode} (found : outline.reverse.find? (assigns name) = some node)
    (here : lines[node.line - 1]? = some line)
    (given : Assignment.value? line.trimStart = some value) (literal : nameValue? value = none)
    (hops : Nat) :
    listFrom outline lines (hops + 1) name =
      StringList.items? (Text.joinLines (value :: lines.drop node.line)) := by
  rw [listFrom, found, Option.bind_eq_bind, Option.bind_some, here, Option.bind_eq_bind,
    Option.bind_some, given, Option.bind_some, literal]

theorem nameValue?_opening {opening : Char} (opens : opensBracket opening = true) (line : Text) :
    nameValue? (' ' :: opening :: line) = none := by
  rcases opensBracket_cases opens with rfl | rfl | rfl <;> rfl

section Name

variable {name : Text} (named : isIdentifier name = true)

include named

theorem value?_assigned {opening : Char} (opens : opensBracket opening = true) (line : Text) :
    Assignment.value? (assigned name (opening :: line)) = some (' ' :: opening :: line) := by
  have blank : ∀ d ∈ [' '], isBlank d = true := List.forall_mem_singleton.mpr rfl
  have noTarget : Assignment.split (' ' :: opening :: line) = ([], ' ' :: opening :: line) := by
    rcases opensBracket_cases opens with rfl | rfl | rfl
    all_goals exact Assignment.split_of_isNamePart_eq_false (by decide) (by decide) blank line
  unfold Assignment.value? Assignment.targets
  rw [Assignment.split_assigned named, noTarget]
  rfl

variable {before : Text} (ends : before.EndsLine)
  (start : (before.lines.foldl SourceState.next {}).atStart = true) {items : List Text}
  {display : Text} (isDisplay : IsDisplay items display) {rest : Text}
  (last : IsLast name (before ++ assigned name (display ++ rest))
    (before.count '\n' + display.count '\n' + 1))

include ends start isDisplay last

theorem find?_assigned :
    ∃ node,
      (Outline.ofSource (before ++ assigned name (display ++ rest))).reverse.find? (assigns name) =
        some node ∧ node.line = before.count '\n' + 1 := by
  obtain ⟨node, later, roots, line, kind, behind⟩ :=
    Outline.ofSource_assigned named ends start (display ++ rest)
  have found : assigns name node = true := by
    unfold assigns
    rw [kind]
    exact List.contains_iff_mem.mpr List.mem_cons_self
  have others : ∀ root ∈ later, assigns name root = false := by
    intro root member
    obtain ⟨s, started, same⟩ := behind root member
    rw [Statement.startsBehindCode_display _ isDisplay] at started
    obtain ⟨i, line, -, rfl⟩ := Statement.exists_line_of_mem_startsFrom started
    apply last root
    · rw [roots]
      exact List.mem_append_right _ (List.mem_cons_of_mem _ member)
    · rw [same]
      show _ < before.count '\n' + 2 + display.count '\n' + i
      omega
  -- The search goes from the last root to the first, so that only the later ones come before.
  refine ⟨node, ?_, line⟩
  rw [roots, List.find?_eq_some_iff_append]
  refine ⟨found, later.reverse, (Outline.ofSource before).reverse, ?_, ?_⟩
  · rw [List.reverse_append, List.reverse_cons, List.append_assoc, List.singleton_append]
  · intro root member
    rw [others root (List.mem_reverse.mp member)]
    rfl

theorem listed_display : listed (before ++ assigned name (display ++ rest)) name = items := by
  obtain ⟨node, found, line⟩ := find?_assigned named ends start isDisplay last
  obtain ⟨opening, first, opens, cut⟩ := isDisplay.exists_opening rest
  have lines := lines_assigned named ends (display ++ rest)
  have number := Text.length_lines ends
  have here : (Text.lines (before ++ assigned name (display ++ rest)))[node.line - 1]? =
      some (assigned name (opening :: first)) := by
    rw [lines, line, Nat.add_sub_cancel, ← number, List.getElem?_append_right (Nat.le_refl _),
      Nat.sub_self, cut]
    rfl
  have more : (Text.lines (before ++ assigned name (display ++ rest))).drop node.line =
      Text.lines (Text.cutLine (display ++ rest)).2 := by
    rw [lines, line, ← number, List.drop_length_add_append]
    rfl
  have given : Assignment.value? (Text.trimStart (assigned name (opening :: first))) =
      some (' ' :: opening :: first) := by
    rw [Text.trimStart_eq_self (margin_assigned named _)]
    exact value?_assigned named opens first
  -- What is read is the lines of the value put together again: the rest of the first line, from its
  -- equals sign on, and all lines behind it.
  have read := items?_display isDisplay rest
  rw [Text.rejoin, Text.lines_eq_cutLine (List.cons_ne_nil _ _),
    Text.cutLine_cons (by decide) (fun same => absurd same (by decide)), cut, ← more] at read
  unfold listed maxHops
  rw [listFrom_literal found here given (nameValue?_opening opens first), read]
  rfl

end Name

/-- A display that is assigned to the name of a list where a statement may start gives the module
exactly its strings in their order, if no later statement at the top level assigns to that name. -/
theorem ofSource_display {name : Text} {list : ModuleMembers → List Text}
    (member : (name, list) ∈ listNames) {before : Text} (ends : before.EndsLine)
    (start : (before.lines.foldl SourceState.next {}).atStart = true) {items : List Text}
    {display : Text} (isDisplay : IsDisplay items display) (rest : Text)
    (last : IsLast name (before ++ assigned name (display ++ rest))
      (before.count '\n' + display.count '\n' + 1)) :
    list (ofSource (before ++ assigned name (display ++ rest))) = items := by
  simp only [listNames, List.mem_cons, List.not_mem_nil, or_false, Prod.mk.injEq] at member
  rcases member with ⟨rfl, rfl⟩ | ⟨rfl, rfl⟩
  · exact listed_display (by decide) ends start isDisplay last
  · exact listed_display (by decide) ends start isDisplay last

def sampleDisplay : Text := "[  # not [\"this\",\n    \"a[b\", 'it\\'s # = x',  # don't\n]"

theorem isDisplay_sampleDisplay : IsDisplay ["a[b", "it's # = x"] sampleDisplay := by
  have spaces (n : Nat) : IsPadding (List.replicate n ' ') := by
    induction n with
    | zero => exact .nil
    | succ n ih => exact .blank rfl ih
  have note {text behind : Text} (inside : '\n' ∉ text) (isPadding : IsPadding behind) :
      IsPadding (' ' :: ' ' :: '#' :: (text ++ '\n' :: behind)) :=
    .blank rfl (.blank rfl (.comment inside isPadding))
  have front : IsPadding _ := @note " not [\"this\"," _ (by decide) (spaces 4)
  have behind : IsPadding _ := @note " don't" _ (by decide) .nil
  have first := @IsElement.mk "a[b" '"' _ _ rfl (by decide) front .nil
  have second := @IsElement.mk "it's # = x" '\x27' _ _ rfl (by decide) (spaces 1) .nil
  have lists := Lists.more first (Lists.more second (Lists.nothing behind))
  exact ⟨('[', ']'), by decide, _, lists, by decide +kernel⟩

theorem ofSource_sampleDisplay :
    (ofSource (("import os\n" : Text) ++ assigned "__autodoc_excludes__"
      (sampleDisplay ++ ("\nclass Shape:\n    __autodoc_excludes__ = []\n" : Text)))).excludes =
        ["a[b", "it's # = x"] := by
  apply ofSource_display List.mem_cons_self (Or.inr rfl) (by decide +kernel) isDisplay_sampleDisplay
  unfold IsLast
  decide +kernel

end ModuleMembers

end DocMarkup
