import DocMarkup.Proofs.Members.Listing

namespace DocMarkup

namespace StringList

/-- The body of a literal and what it stands for: a backslash goes with the character behind it. -/
inductive Spells (quote : Char) : Text → Text → Prop where
  | nil : Spells quote [] []
  | escape {c : Char} {item body : Text} :
      Spells quote item body → Spells quote (c :: item) ('\\' :: c :: body)
  | plain {c : Char} {item body : Text} :
      c ≠ '\\' → c ≠ quote → Spells quote item body → Spells quote (c :: item) (c :: body)

/-- Between literals the character says nothing. -/
structure IsPassed (c : Char) : Prop where
  opens : opensBracket c = false
  closes : closesBracket c = false
  hash : (c == '#') = false
  quote : isQuote c = false

/-- The text closes every bracket that it opens, by a bracket of any kind, and the items are its
literals. -/
inductive Encloses : List Text → Text → Prop where
  | nil : Encloses [] []
  | passed {c : Char} {items : List Text} {text : Text} :
      IsPassed c → Encloses items text → Encloses items (c :: text)
  | comment {note text : Text} {items : List Text} :
      '\n' ∉ note → Encloses items text → Encloses items ('#' :: (note ++ '\n' :: text))
  | literal {quote : Char} {item body text : Text} {items : List Text} :
      isQuote quote = true → Spells quote item body → Encloses items text →
      Encloses (item :: items) (quote :: (body ++ quote :: text))
  | group {opening closing : Char} {body text : Text} {inner items : List Text} :
      opensBracket opening = true → closesBracket closing = true → Encloses inner body →
      Encloses items text → Encloses (inner ++ items) (opening :: (body ++ closing :: text))

/-- Blanks aside, the text starts with a bracket that is closed, and the items are the literals in
between. -/
def IsBracketed (items : List Text) (text : Text) : Prop :=
  ∃ opening body closing rest, text.trimStart = opening :: (body ++ closing :: rest) ∧
    opensBracket opening = true ∧ closesBracket closing = true ∧ Encloses items body

theorem itemsFrom_passed {c : Char} (passed : IsPassed c) (depth : Nat) (rest : Text) :
    itemsFrom .code depth (c :: rest) = itemsFrom .code depth rest := by
  simp only [itemsFrom, passed.opens, passed.closes, passed.hash, passed.quote, Bool.false_eq_true,
    if_false]

theorem itemsFrom_opening {c : Char} (opens : opensBracket c = true) (depth : Nat) (rest : Text) :
    itemsFrom .code depth (c :: rest) = itemsFrom .code (depth + 1) rest := by
  simp only [itemsFrom, opens, if_true]

theorem itemsFrom_closing {c : Char} (closes : closesBracket c = true) (depth : Nat)
    (rest : Text) : itemsFrom .code (depth + 1) (c :: rest) = itemsFrom .code depth rest := by
  rcases closesBracket_cases closes with rfl | rfl | rfl <;> rfl

theorem itemsFrom_note {note : Text} (inside : '\n' ∉ note) (depth : Nat) (rest : Text) :
    itemsFrom .comment depth (note ++ '\n' :: rest) = itemsFrom .code depth rest := by
  induction note with
  | nil => rfl
  | cons c note ih =>
    rw [List.mem_cons, not_or] at inside
    have other : (c == '\n') = false := beq_eq_false_iff_ne.mpr (Ne.symm inside.1)
    rw [List.cons_append]
    simp only [itemsFrom, other, Bool.false_eq_true, if_false]
    exact ih inside.2

theorem itemsFrom_spells {quote : Char} {item body : Text} (quotes : isQuote quote = true)
    (spells : Spells quote item body) (begun : Text) (depth : Nat) (rest : Text) :
    itemsFrom (.quoted quote begun) depth (body ++ quote :: rest) =
      (itemsFrom .code depth rest).map ((begun ++ item) :: ·) := by
  have plain : quote ≠ '\\' := by
    rintro rfl
    cases quotes
  induction spells generalizing begun with
  | nil =>
    rw [List.nil_append, List.append_nil, itemsFrom_literal plain, if_pos (beq_self_eq_true _)]
  | @escape c item body _ ih =>
    have next := ih (begun ++ [c])
    rw [List.append_assoc, List.singleton_append] at next
    simp only [List.cons_append, itemsFrom, beq_self_eq_true, if_true]
    exact next
  | @plain c item body mark other _ ih =>
    have next := ih (begun ++ [c])
    rw [List.append_assoc, List.singleton_append] at next
    rw [List.cons_append, itemsFrom_literal mark, if_neg (by simpa using other), next]

theorem itemsFrom_encloses {items : List Text} {body : Text} (encloses : Encloses items body)
    (depth : Nat) (rest : Text) :
    itemsFrom .code depth (body ++ rest) = (itemsFrom .code depth rest).map (items ++ ·) := by
  induction encloses generalizing depth rest with
  | nil =>
    rw [List.nil_append]
    exact (Option.map_id_apply).symm
  | passed passed _ ih => rw [List.cons_append, itemsFrom_passed passed, ih]
  | @comment note text items inside _ ih =>
    have hash : itemsFrom .code depth ('#' :: (note ++ '\n' :: (text ++ rest))) =
        itemsFrom .comment depth (note ++ '\n' :: (text ++ rest)) := rfl
    rw [List.cons_append, List.append_assoc, List.cons_append, hash, itemsFrom_note inside, ih]
  | @literal quote item body text items quotes spells _ ih =>
    have code : itemsFrom .code depth (quote :: (body ++ quote :: (text ++ rest))) =
        itemsFrom (.quoted quote []) depth (body ++ quote :: (text ++ rest)) := by
      rcases isQuote_cases quotes with rfl | rfl <;> rfl
    rw [List.cons_append, List.append_assoc, List.cons_append, code,
      itemsFrom_spells quotes spells, ih, Option.map_map]
    rfl
  | @group opening closing body text inner items opens closes _ _ ihBody ih =>
    rw [List.cons_append, List.append_assoc, List.cons_append, itemsFrom_opening opens, ihBody,
      itemsFrom_closing closes, ih, Option.map_map]
    simp only [Function.comp_def, List.append_assoc]

/-- The text closes `depth` brackets and one more, and the items are the literals up to the last
of them. -/
inductive Closes : Nat → List Text → Text → Prop where
  | last {closing : Char} {items : List Text} {body rest : Text} :
      Encloses items body → closesBracket closing = true →
      Closes 0 items (body ++ closing :: rest)
  | outer {closing : Char} {depth : Nat} {inner items : List Text} {body text : Text} :
      Encloses inner body → closesBracket closing = true → Closes depth items text →
      Closes (depth + 1) (inner ++ items) (body ++ closing :: text)

theorem Closes.prepend {depth : Nat} {items : List Text} {text : Text} (inner : List Text)
    (front : Text) (closes : Closes depth items text)
    (extend : ∀ {items body}, Encloses items body → Encloses (inner ++ items) (front ++ body)) :
    Closes depth (inner ++ items) (front ++ text) := by
  cases closes with
  | last encloses closing =>
    rw [← List.append_assoc]
    exact .last (extend encloses) closing
  | outer encloses closing rest =>
    rw [← List.append_assoc, ← List.append_assoc]
    exact .outer (extend encloses) closing rest

theorem Closes.opening {c : Char} (opens : opensBracket c = true) {depth : Nat}
    {items : List Text} {text : Text} (closes : Closes (depth + 1) items text) :
    Closes depth items (c :: text) := by
  obtain _ | ⟨encloses, closing, rest⟩ := closes
  have extend {items : List Text} {body : Text} (behind : Encloses items body) :=
    Encloses.group opens closing encloses behind
  have whole := rest.prepend _ (c :: (_ ++ [_])) fun behind => by
    simpa using extend behind
  simpa using whole

def ClosesFrom (depth : Nat) (items : List Text) (text : Text) : Place → Prop
  | .code => Closes depth items text
  | .comment => ∃ note behind, text = note ++ '\n' :: behind ∧ '\n' ∉ note ∧
      Closes depth items behind
  | .quoted quote begun => ∃ item body behind more, text = body ++ quote :: behind ∧
      Spells quote item body ∧ items = (begun ++ item) :: more ∧ Closes depth more behind

theorem closesFrom_of_itemsFrom {place : Place} {depth : Nat} {text : Text} {items : List Text}
    (read : itemsFrom place depth text = some items) : ClosesFrom depth items text place := by
  -- The cases are those of the reader: a character in a comment, one in a literal, and one in code.
  fun_induction itemsFrom place depth text generalizing items with
  | case1 => cases read
  | case2 depth c rest ih =>
    have tail := ih read
    by_cases feed : c = '\n'
    · rw [if_pos (beq_iff_eq.mpr feed)] at tail
      exact ⟨[], rest, by rw [feed]; rfl, List.not_mem_nil, tail⟩
    · rw [if_neg (by simpa using feed)] at tail
      obtain ⟨note, behind, rfl, inside, closes⟩ := tail
      have within : '\n' ∉ c :: note :=
        List.not_mem_cons_of_ne_of_not_mem (Ne.symm feed) inside
      exact ⟨c :: note, behind, rfl, within, closes⟩
  | case3 => cases read
  | case4 depth c quote begun mark d rest ih =>
    obtain ⟨item, body, behind, more, rfl, spells, rfl, closes⟩ := ih read
    obtain rfl := eq_of_beq mark
    exact ⟨d :: item, '\\' :: d :: body, behind, more, rfl, .escape spells, by simp, closes⟩
  | case5 depth c rest quote begun mark ends ih =>
    obtain ⟨more, found, rfl⟩ := Option.map_eq_some_iff.mp read
    exact ⟨[], [], rest, more, by rw [eq_of_beq ends]; rfl, .nil, by simp, ih found⟩
  | case6 depth c rest quote begun mark other ih =>
    obtain ⟨item, body, behind, more, rfl, spells, rfl, closes⟩ := ih read
    exact ⟨c :: item, c :: body, behind, more, rfl,
      .plain (by simpa using mark) (by simpa using other) spells, by simp, closes⟩
  | case7 depth c rest opens ih => exact Closes.opening opens (ih read)
  | case8 c rest _ closes =>
    cases read
    exact .last .nil closes
  | case9 c rest _ closes depth ih => exact .outer .nil closes (ih read)
  | case10 depth c rest _ _ hash ih =>
    obtain ⟨note, behind, rfl, inside, closes⟩ := ih read
    obtain rfl := eq_of_beq hash
    have whole := closes.prepend [] ('#' :: (note ++ ['\n'])) fun encloses => by
      simpa using Encloses.comment inside encloses
    show Closes _ _ _
    simpa using whole
  | case11 depth c rest _ _ _ quotes ih =>
    obtain ⟨item, body, behind, more, rfl, spells, rfl, closes⟩ := ih read
    have whole := closes.prepend [item] (c :: (body ++ [c])) fun encloses => by
      simpa using Encloses.literal quotes spells encloses
    show Closes _ _ _
    simpa using whole
  | case12 depth c rest opens closes hash quotes ih =>
    have passed : IsPassed c :=
      ⟨by simpa using opens, by simpa using closes, by simpa using hash, by simpa using quotes⟩
    exact (ih read).prepend [] [c] fun encloses => .passed passed encloses

theorem items?_eq_some_iff {text : Text} {items : List Text} :
    items? text = some items ↔ IsBracketed items text := by
  unfold items? IsBracketed
  constructor
  · intro read
    split at read
    · cases read
    · rename_i c rest starts
      rw [Option.ite_none_right_eq_some] at read
      obtain ⟨opens, read⟩ := read
      have closes : Closes 0 items rest := closesFrom_of_itemsFrom read
      obtain ⟨encloses, closing⟩ := closes
      exact ⟨c, _, _, _, starts, opens, closing, encloses⟩
  · rintro ⟨opening, body, closing, rest, starts, opens, closes, encloses⟩
    have ends : itemsFrom .code 0 (closing :: rest) = some [] := by
      rcases closesBracket_cases closes with rfl | rfl | rfl <;> rfl
    rw [starts]
    simp only [opens, if_true]
    rw [itemsFrom_encloses encloses, ends, Option.map_some, List.append_nil]

end StringList

namespace ModuleMembers

/-- The last assignment to the name at the top level is the node, and what stands behind its equals
signs on its line is the value. -/
def IsLastValue (outline : Outline) (lines : List Text) (name : Text) (node : OutlineNode)
    (value : Text) : Prop :=
  outline.reverse.find? (assigns name) = some node ∧
    ∃ line, lines[node.line - 1]? = some line ∧ Assignment.value? line.trimStart = some value

/-- The name has the text as its value, or has a name as its value from which the text is reached.
The text goes on to the end of the file. The number bounds how many assignments are looked at. -/
inductive Reaches (outline : Outline) (lines : List Text) : Nat → Text → Text → Prop where
  | value {hops : Nat} {name value : Text} {node : OutlineNode} :
      IsLastValue outline lines name node value → nameValue? value = none →
      Reaches outline lines (hops + 1) name (Text.joinLines (value :: lines.drop node.line))
  | name {hops : Nat} {name value other text : Text} {node : OutlineNode} :
      IsLastValue outline lines name node value → nameValue? value = some other →
      Reaches outline lines hops other text → Reaches outline lines (hops + 1) name text

section Value

variable {outline : Outline} {lines : List Text} {name value : Text} {node : OutlineNode}
  (isLast : IsLastValue outline lines name node value)

include isLast

theorem IsLastValue.listFrom_literal (literal : nameValue? value = none) (hops : Nat) :
    listFrom outline lines (hops + 1) name =
      StringList.items? (Text.joinLines (value :: lines.drop node.line)) := by
  obtain ⟨found, line, here, given⟩ := isLast
  exact ModuleMembers.listFrom_literal found here given literal hops

theorem IsLastValue.listFrom_name {other : Text} (isName : nameValue? value = some other)
    (hops : Nat) : listFrom outline lines (hops + 1) name = listFrom outline lines hops other := by
  obtain ⟨found, line, here, given⟩ := isLast
  rw [listFrom, found, Option.bind_eq_bind, Option.bind_some, here, Option.bind_eq_bind,
    Option.bind_some, given, Option.bind_some, isName]

end Value

theorem exists_isLastValue {outline : Outline} {lines : List Text} {hops : Nat} {name : Text}
    {items : List Text} (found : listFrom outline lines (hops + 1) name = some items) :
    ∃ node value, IsLastValue outline lines name node value := by
  rw [listFrom] at found
  obtain ⟨node, last, found⟩ := Option.bind_eq_some_iff.mp found
  obtain ⟨line, here, found⟩ := Option.bind_eq_some_iff.mp found
  obtain ⟨value, given, -⟩ := Option.bind_eq_some_iff.mp found
  exact ⟨node, value, last, line, here, given⟩

theorem listFrom_eq_some_iff {outline : Outline} {lines : List Text} {hops : Nat} {name : Text}
    {items : List Text} :
    listFrom outline lines hops name = some items ↔
      ∃ text, Reaches outline lines hops name text ∧ StringList.IsBracketed items text := by
  constructor
  · intro found
    induction hops generalizing name with
    | zero => cases found
    | succ hops ih =>
      obtain ⟨node, value, isLast⟩ := exists_isLastValue found
      cases kind : nameValue? value with
      | none =>
        rw [isLast.listFrom_literal kind] at found
        exact ⟨_, .value isLast kind, StringList.items?_eq_some_iff.mp found⟩
      | some other =>
        rw [isLast.listFrom_name kind] at found
        obtain ⟨text, reaches, bracketed⟩ := ih found
        exact ⟨text, .name isLast kind reaches, bracketed⟩
  · rintro ⟨text, reaches, bracketed⟩
    induction reaches with
    | value isLast literal =>
      rw [isLast.listFrom_literal literal]
      exact StringList.items?_eq_some_iff.mpr bracketed
    | name isLast isName _ ih =>
      rw [isLast.listFrom_name isName]
      exact ih bracketed

theorem list_ofSource {name : Text} {list : ModuleMembers → List Text}
    (member : (name, list) ∈ listNames) (source : Text) :
    list (ofSource source) = listed source name := by
  simp only [listNames, List.mem_cons, List.not_mem_nil, or_false, Prod.mk.injEq] at member
  rcases member with ⟨rfl, rfl⟩ | ⟨rfl, rfl⟩ <;> rfl

/-- The list of a module holds the literals in the brackets that the value reached for it starts
with, whatever else stands between these brackets and behind them. It is empty if no value is
reached, or one that does not start with a bracket, or with one that is not closed. -/
theorem ofSource_eq_iff {name : Text} {list : ModuleMembers → List Text}
    (member : (name, list) ∈ listNames) (source : Text) (items : List Text) :
    list (ofSource source) = items ↔
      (∃ text, Reaches (Outline.ofSource source) source.lines maxHops name text ∧
        StringList.IsBracketed items text) ∨
      items = [] ∧ ∀ text other,
        Reaches (Outline.ofSource source) source.lines maxHops name text →
          ¬ StringList.IsBracketed other text := by
  rw [list_ofSource member, ← listFrom_eq_some_iff, listed]
  cases found : listFrom (Outline.ofSource source) source.lines maxHops name with
  | some read =>
    obtain ⟨text, reaches, bracketed⟩ := listFrom_eq_some_iff.mp found
    constructor
    · rintro rfl
      exact Or.inl rfl
    · rintro (same | ⟨-, none⟩)
      · exact Option.some.inj same
      · exact absurd bracketed (none text read reaches)
  | none =>
    have unread (other : List Text) (text : Text)
        (reaches : Reaches (Outline.ofSource source) source.lines maxHops name text) :
        ¬ StringList.IsBracketed other text := by
      intro bracketed
      have read := listFrom_eq_some_iff.mpr ⟨text, reaches, bracketed⟩
      rw [found] at read
      cases read
    constructor
    · rintro rfl
      exact Or.inr ⟨rfl, fun text other => unread other text⟩
    · rintro (same | ⟨rfl, -⟩)
      · cases same
      · rfl

theorem isLastValue_of_line {outline : Outline} {lines : List Text} {name line value : Text}
    {number : Nat}
    (last : (outline.reverse.find? (assigns name)).map OutlineNode.line = some number)
    (here : lines[number - 1]? = some line)
    (given : Assignment.value? line.trimStart = some value) :
    ∃ node, node.line = number ∧ IsLastValue outline lines name node value := by
  obtain ⟨node, found, rfl⟩ := Option.map_eq_some_iff.mp last
  exact ⟨node, rfl, found, line, here, given⟩

def sampleCalls : Text := "a = ['b', f('c')] + d\n__deprecated__ = a"

theorem ofSource_sampleCalls : (ofSource sampleCalls).deprecated = ["b", "c"] := by
  have outer : ∃ node, node.line = 2 ∧ IsLastValue (Outline.ofSource sampleCalls)
      (Text.lines sampleCalls) "__deprecated__" node " a" :=
    isLastValue_of_line (by decide +kernel) rfl (by decide +kernel)
  have inner : ∃ node, node.line = 1 ∧ IsLastValue (Outline.ofSource sampleCalls)
      (Text.lines sampleCalls) "a" node " ['b', f('c')] + d" :=
    isLastValue_of_line (by decide +kernel) rfl (by decide +kernel)
  obtain ⟨_, -, isName⟩ := outer
  obtain ⟨_, line, isValue⟩ := inner
  have reaches : Reaches _ _ maxHops _ _ := .name isName rfl (.value isValue rfl)
  rw [line] at reaches
  have member : ("__deprecated__".toList, deprecated) ∈ listNames :=
    List.mem_cons_of_mem _ List.mem_cons_self
  apply (ofSource_eq_iff member sampleCalls ["b", "c"]).mpr
  exact Or.inl ⟨_, reaches, StringList.items?_eq_some_iff.mp (by decide +kernel)⟩

/-- The text starts with a display of strings, with nothing but a comment behind it on its line. -/
def IsStringList (text : Text) : Prop :=
  ∃ items display behind, StringList.IsDisplay items display ∧
    text.trimStart = display ++ behind ∧
    ∀ c ∈ (Text.cutLine behind).1.trimStart.head?, c = '#'

theorem IsStringList.exists_closing {text : Text} (isList : IsStringList text) :
    ∃ place ≤ text.trimStart.length,
      (text.trimStart.take place).getLast?.any closesBracket = true ∧
      (Text.cutLine (text.trimStart.drop place)).1.trimStart.head?.all (· == '#') = true := by
  obtain ⟨_, display, behind, ⟨pair, member, body, -, rfl⟩, starts, comment⟩ := isList
  have closes := (StringList.opensBracket_of_mem member).2
  refine ⟨(pair.1 :: (body ++ [pair.2])).length, ?_, ?_, ?_⟩
  · rw [starts, List.length_append]
    exact Nat.le_add_right _ _
  · rw [starts, List.take_left, ← List.cons_append, List.getLast?_concat]
    exact closes
  · rw [starts, List.drop_left, Option.all_eq_true]
    intro c first
    exact beq_iff_eq.mpr (comment c first)

/-- A sum of lists is no display of strings, and yet its first display is read. -/
theorem not_forall_list_eq_nil :
    ¬ ∀ name list, (name, list) ∈ listNames → ∀ source text : Text,
      Reaches (Outline.ofSource source) source.lines maxHops name text →
        ¬ IsStringList text → list (ofSource source) = [] := by
  intro all
  let source : Text := "__autodoc_excludes__ = ['a'] + other"
  have last : ∃ node, node.line = 1 ∧ IsLastValue (Outline.ofSource source) (Text.lines source)
      "__autodoc_excludes__" node " ['a'] + other" :=
    isLastValue_of_line (by decide +kernel) rfl (by decide +kernel)
  obtain ⟨_, line, isValue⟩ := last
  have reaches : Reaches _ _ maxHops _ _ := .value isValue rfl
  rw [line] at reaches
  have read : (ofSource source).excludes ≠ [] := by decide +kernel
  apply read
  apply all _ _ List.mem_cons_self source _ reaches
  intro isList
  have closing := isList.exists_closing
  revert closing
  decide +kernel

end ModuleMembers

end DocMarkup
