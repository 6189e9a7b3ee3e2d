import DocMarkup.Proofs.Members.Brackets
import DocMarkup.Proofs.Outline.Chained
import DocMarkup.Proofs.Outline.Lookup

namespace DocMarkup

namespace StringList

theorem IsPadding.encloses {padding : Text} (isPadding : IsPadding padding) {items : List Text}
    {text : Text} (encloses : Encloses items text) : Encloses items (padding ++ text) := by
  induction isPadding with
  | nil => exact encloses
  | blank blank _ ih =>
    have inert := isInert_of_isBlank blank
    exact .passed ⟨inert.opens, inert.closes, inert.hash, inert.quote⟩ ih
  | comment inside _ ih =>
    rw [List.cons_append, List.append_assoc, List.cons_append]
    exact .comment inside ih

theorem spells_escaped (quote : Char) (item : Text) : Spells quote item (escaped quote item) := by
  induction item with
  | nil => exact .nil
  | cons c item ih =>
    rw [escaped_cons]
    by_cases marked : c = '\\' ∨ c = quote
    · rw [if_pos marked]
      exact .escape ih
    · rw [if_neg marked]
      rw [not_or] at marked
      exact .plain marked.1 marked.2 ih

theorem IsElement.encloses {item text : Text} (element : IsElement item text) {items : List Text}
    {rest : Text} (encloses : Encloses items rest) : Encloses (item :: items) (text ++ rest) := by
  obtain @⟨quote, before, behind, quotes, -, isBefore, isBehind⟩ := element
  have literal := Encloses.literal quotes (spells_escaped quote item) (isBehind.encloses encloses)
  have whole := isBefore.encloses literal
  simpa [quoted] using whole

theorem Lists.encloses {items : List Text} {text : Text} (lists : Lists items text) :
    Encloses items text := by
  induction lists with
  | nothing isPadding =>
    have whole := isPadding.encloses Encloses.nil
    rwa [List.append_nil] at whole
  | last element =>
    have whole := element.encloses Encloses.nil
    rwa [List.append_nil] at whole
  | more element _ ih =>
    exact element.encloses (.passed ⟨rfl, rfl, rfl, rfl⟩ ih)

theorem IsDisplay.isBracketed {items : List Text} {display : Text}
    (isDisplay : IsDisplay items display) {text rest : Text}
    (starts : text.trimStart = display ++ rest) : IsBracketed items text := by
  obtain ⟨pair, member, body, lists, rfl⟩ := isDisplay
  obtain ⟨opens, closes⟩ := opensBracket_of_mem member
  refine ⟨pair.1, body, pair.2, rest, ?_, opens, closes, lists.encloses⟩
  rw [starts, List.cons_append, List.append_assoc, List.singleton_append]

end StringList

def IsNote (note : Text) : Prop := note = [] ∨ ∃ text, note = '#' :: text

namespace Assignment

theorem split_of_parts {parts note : Text} (isPart : ∀ c ∈ parts, isNamePart c = true)
    (isNote : IsNote note) : split (parts ++ note) = ([], parts ++ note) := by
  have none (previous : Char) : cutFrom none 0 previous (parts ++ note) = none := by
    induction parts generalizing previous with
    | nil => rcases isNote with rfl | ⟨text, rfl⟩ <;> rfl
    | cons c parts ih =>
      obtain ⟨first, others⟩ := List.forall_mem_cons.mp isPart
      rw [List.cons_append, cutFrom_of_isNamePart first, ih others]
      rfl
  exact split_of_no_cut (none ' ')

end Assignment

namespace ModuleMembers

/-- The value is the name, with nothing but a comment behind it. -/
def IsNameValue (name value : Text) : Prop :=
  isIdentifier name = true ∧ ∃ lead gap note, value = lead ++ (name ++ (gap ++ note)) ∧
    lead.IsMargin ∧ gap.IsMargin ∧ IsNote note

theorem IsNameValue.split {name value : Text} (isName : IsNameValue name value) :
    Assignment.split value = ([], value) := by
  obtain ⟨named, lead, gap, note, rfl, before, behind, isNote⟩ := isName
  have isPart : ∀ c ∈ lead ++ (name ++ gap), Assignment.isNamePart c = true := by
    intro c member
    rw [List.mem_append, List.mem_append] at member
    rw [Assignment.isNamePart, Bool.or_eq_true]
    rcases member with blank | word | blank
    · exact Or.inl (before c blank)
    · exact Or.inr (Assignment.isWord_of_isIdentifier named c word)
    · exact Or.inl (behind c blank)
  have whole := Assignment.split_of_parts isPart isNote
  simpa using whole

theorem takeWhile_isWord_gap {gap note : Text} (blank : gap.IsMargin) (isNote : IsNote note) :
    (gap ++ note).takeWhile isWord = [] := by
  cases gap with
  | nil => rcases isNote with rfl | ⟨text, rfl⟩ <;> rfl
  | cons c gap =>
    rw [List.cons_append, List.takeWhile_cons, isWord_of_isBlank (blank c List.mem_cons_self)]
    rfl

theorem IsNameValue.nameValue? {name value : Text} (isName : IsNameValue name value) :
    ModuleMembers.nameValue? value = some name := by
  obtain ⟨named, lead, gap, note, rfl, before, behind, isNote⟩ := isName
  have starts : Text.trimStart (lead ++ (name ++ (gap ++ note))) = name ++ (gap ++ note) := by
    rw [Text.trimStart_append before, Text.trimStart_eq_self (margin_name_append named _)]
  have leading : StatementKind.leadingIdentifier? (name ++ (gap ++ note)) = some name := by
    cases name with
    | nil => cases named
    | cons c name =>
      rw [isIdentifier, Bool.and_eq_true, List.all_eq_true] at named
      rw [List.cons_append, StatementKind.leadingIdentifier?, if_pos named.1,
        List.takeWhile_append_of_pos named.2, takeWhile_isWord_gap behind isNote, List.append_nil]
  rw [ModuleMembers.nameValue?, starts, leading]
  simp only [List.drop_left, Text.trimStart_append behind]
  rcases isNote with rfl | ⟨text, rfl⟩ <;> rfl

theorem value_of_opening {value tail rest : Text} {opening : Char}
    (opens : opensBracket opening = true) (starts : (value ++ tail).trimStart = opening :: rest) :
    Assignment.split value = ([], value) ∧ nameValue? value = none := by
  have whole := Text.margin_append_trimStart value
  have blank := Text.isMargin_margin value
  cases front : value.trimStart with
  | nil =>
    have isPart : ∀ c ∈ value.margin, Assignment.isNamePart c = true := by
      intro c member
      rw [Assignment.isNamePart, blank c member]
      rfl
    have split := Assignment.split_of_parts isPart (Or.inl rfl)
    rw [front] at whole
    rw [whole] at split
    refine ⟨split, ?_⟩
    rw [nameValue?, front]
    rfl
  | cons c behind =>
    have content : isBlank c = false := by
      have flush := Text.margin_trimStart value
      rw [front] at flush
      exact Text.isBlank_head_of_margin flush
    rw [front] at whole
    have same : c = opening := by
      rw [← whole, List.append_assoc, Text.trimStart_append blank, List.cons_append,
        Text.trimStart_eq_self (Text.margin_cons_of_content content _)] at starts
      exact (List.cons.inj starts).1
    subst same
    constructor
    · rw [← whole]
      rcases opensBracket_cases opens with rfl | rfl | rfl
      all_goals exact Assignment.split_of_isNamePart_eq_false (by decide) (by decide) blank behind
    · rw [nameValue?, front]
      rcases opensBracket_cases opens with rfl | rfl | rfl <;> rfl

/-- The last statement at the top level that assigns to the name stands on the line with this
number and gives it the value. -/
def IsGivenLast (source name value : Text) (number : Nat) : Prop :=
  ∃ earlier node later line names,
    Outline.ofSource source = earlier ++ node :: later ∧ node.line = number ∧
    source.lines[number - 1]? = some line ∧ Assignment.Gives value names line.trimStart ∧
    name ∈ names ∧ ∀ root ∈ later, assigns name root = false

theorem IsGivenLast.isLastValue {source name value : Text} {number : Nat}
    (given : IsGivenLast source name value number) (whole : Assignment.split value = ([], value)) :
    ∃ node, node.line = number ∧
      IsLastValue (Outline.ofSource source) source.lines name node value := by
  obtain ⟨earlier, node, later, line, names, outline, rfl, here, gives, member, last⟩ := given
  have root : node ∈ Outline.ofSource source := by
    rw [outline]
    exact List.mem_append_right _ List.mem_cons_self
  have kind : node.kind = .assignment names := by
    obtain ⟨-, line', here', kind⟩ :=
      Outline.exists_line_of_mem_placed (Outline.mem_placed_of_mem root none)
    rw [here] at here'
    cases here'
    rw [kind, gives.ofText whole (Text.margin_trimStart line)]
  refine ⟨node, rfl, ?_, line, here, gives.value? whole⟩
  have found : assigns name node = true := by
    rw [assigns, kind]
    exact List.contains_iff_mem.mpr member
  -- The search goes from the last root to the first, so that only the later ones come before.
  rw [outline, List.find?_eq_some_iff_append]
  refine ⟨found, later.reverse, earlier.reverse, ?_, ?_⟩
  · rw [List.reverse_append, List.reverse_cons, List.append_assoc, List.singleton_append]
  · intro root member
    rw [last root (List.mem_reverse.mp member)]
    rfl

/-- A display of the strings is the last value of the name, and perhaps goes on over more lines. -/
def IsGivenList (source name : Text) (items : List Text) : Prop :=
  ∃ value number display rest, IsGivenLast source name value number ∧
    StringList.IsDisplay items display ∧
    Text.trimStart (Text.joinLines (value :: source.lines.drop number)) = display ++ rest

theorem IsGivenList.listFrom {source name : Text} {items : List Text}
    (given : IsGivenList source name items) (hops : Nat) :
    ModuleMembers.listFrom (Outline.ofSource source) source.lines (hops + 1) name =
      some items := by
  obtain ⟨value, number, display, rest, givenLast, isDisplay, starts⟩ := given
  have opening : ∃ tail, Text.joinLines (value :: source.lines.drop number) = value ++ tail := by
    cases source.lines.drop number with
    | nil => exact ⟨[], by simp [Text.joinLines, Text.joinWith]⟩
    | cons next lines => exact ⟨_, rfl⟩
  obtain ⟨tail, joined⟩ := opening
  obtain ⟨split, literal⟩ : Assignment.split value = ([], value) ∧ nameValue? value = none := by
    obtain ⟨pair, member, body, -, rfl⟩ := isDisplay
    rw [joined] at starts
    exact value_of_opening (StringList.opensBracket_of_mem member).1 starts
  obtain ⟨node, rfl, isLast⟩ := givenLast.isLastValue split
  rw [isLast.listFrom_literal literal]
  exact StringList.items?_eq_some_iff.mpr (isDisplay.isBracketed starts)

/-- The last value of the first name is a name, the last value of that is a name, and so on for
this number of times up to the last name. -/
inductive Chain (source : Text) : Nat → Text → Text → Prop where
  | nil {name : Text} : Chain source 0 name name
  | cons {hops number : Nat} {name value other last : Text} :
      IsGivenLast source name value number → IsNameValue other value →
      Chain source hops other last → Chain source (hops + 1) name last

namespace Chain

variable {source name last : Text} {hops : Nat}

theorem listFrom (chain : Chain source hops name last) (more : Nat) :
    ModuleMembers.listFrom (Outline.ofSource source) source.lines (hops + more) name =
      ModuleMembers.listFrom (Outline.ofSource source) source.lines more last := by
  induction chain with
  | nil => rw [Nat.zero_add]
  | @cons hops number name value other last given isName _ ih =>
    obtain ⟨node, -, isLast⟩ := given.isLastValue isName.split
    rw [Nat.add_right_comm, isLast.listFrom_name isName.nameValue?, ih]

theorem listFrom_eq_none (chain : Chain source hops name last) {bound : Nat}
    (long : bound ≤ hops) :
    ModuleMembers.listFrom (Outline.ofSource source) source.lines bound name = none := by
  induction chain generalizing bound with
  | nil =>
    rw [Nat.le_zero.mp long]
    rfl
  | @cons hops number name value other last given isName _ ih =>
    cases bound with
    | zero => rfl
    | succ bound =>
      obtain ⟨node, -, isLast⟩ := given.isLastValue isName.split
      rw [isLast.listFrom_name isName.nameValue?]
      exact ih (Nat.le_of_succ_le_succ long)

theorem append (chain : Chain source hops name last) {more : Nat} {final : Text}
    (behind : Chain source more last final) : Chain source (hops + more) name final := by
  induction chain with
  | nil =>
    rw [Nat.zero_add]
    exact behind
  | @cons hops _ _ _ _ _ given isName _ ih =>
    rw [Nat.add_right_comm]
    exact .cons given isName (ih behind)

theorem exists_longer {more : Nat} (cycle : Chain source (more + 1) name name) (bound : Nat) :
    ∃ hops, bound ≤ hops ∧ Chain source hops name name := by
  induction bound with
  | zero => exact ⟨0, Nat.le_refl 0, .nil⟩
  | succ bound ih =>
    obtain ⟨hops, le, chain⟩ := ih
    exact ⟨more + 1 + hops, by omega, cycle.append chain⟩

theorem list_eq_nil {list : ModuleMembers → List Text} (member : (name, list) ∈ listNames)
    (chain : Chain source hops name last) (long : maxHops ≤ hops) :
    list (ofSource source) = [] := by
  rw [list_ofSource member, listed, chain.listFrom_eq_none long]
  rfl

end Chain

/-- A list behind less than `maxHops` names is the one at the end of them. Behind more names nothing
is found, and neither where the names lead round in a circle. -/
theorem ofSource_chain {name : Text} {list : ModuleMembers → List Text}
    (member : (name, list) ∈ listNames) {source last : Text} {hops : Nat}
    (chain : Chain source hops name last) :
    (hops < maxHops → ∀ items, IsGivenList source last items → list (ofSource source) = items) ∧
      (maxHops ≤ hops → list (ofSource source) = []) ∧
      (∀ more, Chain source (more + 1) last last → list (ofSource source) = []) := by
  refine ⟨?_, chain.list_eq_nil member, ?_⟩
  · intro near items given
    obtain ⟨more, bound⟩ : ∃ more, maxHops = hops + (more + 1) :=
      ⟨maxHops - hops - 1, by omega⟩
    rw [list_ofSource member, listed, bound, chain.listFrom, given.listFrom]
    rfl
  · intro more cycle
    obtain ⟨rounds, long, round⟩ := cycle.exists_longer maxHops
    exact (chain.append round).list_eq_nil member (Nat.le_trans long (Nat.le_add_left _ _))

def kindAssigns (name : Text) : StatementKind → Bool
  | .assignment targets => targets.contains name
  | _ => false

section Known

variable {source : Text} {lines : List Text} {headings : List (StatementKind × Nat × Nat)}
  (texts : source.lines = lines)
  (roots : (Outline.ofSource source).map OutlineNode.heading = headings)

include texts roots

theorem isGivenLast_of_line (target : Text) {name value : Text} {number : Nat}
    (last : (headings.reverse.find? fun heading => kindAssigns name heading.1).map (·.2.1) =
      some number)
    (here : lines[number - 1]? = some (target ++ '=' :: value))
    (flush : Text.margin (target ++ '=' :: value) = []) (same : target.trim = name)
    (named : isIdentifier name = true) (bare : value.head? ≠ some '=') :
    IsGivenLast source name value number := by
  rw [← roots, ← List.map_reverse, List.find?_map, Option.map_map] at last
  obtain ⟨node, found, line⟩ := Option.map_eq_some_iff.mp last
  obtain ⟨-, later, earlier, parts, apart⟩ := List.find?_eq_some_iff_append.mp found
  have outline : Outline.ofSource source = earlier.reverse ++ node :: later.reverse := by
    rw [← List.reverse_reverse (Outline.ofSource source), parts]
    simp
  rw [← texts] at here
  refine ⟨_, node, _, _, [name], outline, line, here, ?_, List.mem_singleton_self _, ?_⟩
  · rw [Text.trimStart_eq_self flush, ← same]
    rw [← same] at named
    exact .last named bare
  · intro root member
    have other := apart root (List.mem_reverse.mp member)
    rwa [Bool.not_eq_true'] at other

theorem Chain.ofLine {name other last : Text} {hops : Nat} (number : Nat)
    (chain : Chain source hops other last)
    (given : (headings.reverse.find? fun heading => kindAssigns name heading.1).map (·.2.1) =
      some number)
    (here : lines[number - 1]? = some (assigned name other)) (named : isIdentifier name = true)
    (named' : isIdentifier other = true) : Chain source (hops + 1) name last := by
  have isName : IsNameValue other (' ' :: other) :=
    ⟨named', [' '], [], [], by simp, Text.isMargin_spaces 1, Text.isMargin_spaces 0,
      Or.inl rfl⟩
  have same : assigned name other = (name ++ [' ']) ++ '=' :: ' ' :: other := by
    rw [assigned, List.append_assoc]
    rfl
  have flush := margin_assigned named other
  rw [same] at here flush
  exact .cons (isGivenLast_of_line texts roots _ given here flush (Assignment.trim_name_append named)
    named (fun equals => absurd (Option.some.inj equals) (by decide))) isName chain

end Known

def sampleHops : Text :=
  "old = []\nend=['x',\n'y']\n__deprecated__ = old\nlater  = end # x\nold = later"

theorem ofSource_sampleHops :
    3 < maxHops ∧ (ofSource sampleHops).deprecated = ["x", "y"] := by
  have texts : Text.lines sampleHops = ["old = []", "end=['x',", "'y']", "__deprecated__ = old",
      "later  = end # x", "old = later"] := by decide +kernel
  have roots : (Outline.ofSource sampleHops).map OutlineNode.heading =
      [(.assignment ["old"], 1, 0), (.assignment ["end"], 2, 0),
        (.assignment ["__deprecated__"], 4, 0), (.assignment ["later"], 5, 0),
        (.assignment ["old"], 6, 0)] := by decide +kernel
  have given : IsGivenLast sampleHops "end" "['x'," 2 :=
    isGivenLast_of_line texts roots "end" rfl rfl (by decide) (by decide) (by decide)
      (by decide)
  have isList : IsGivenList sampleHops "end" ["x", "y"] := by
    have first : StringList.IsElement "x" "'x'" :=
      @StringList.IsElement.mk "x" '\x27' _ _ rfl (by decide) .nil .nil
    have second : StringList.IsElement "y" "\n'y'" :=
      @StringList.IsElement.mk "y" '\x27' _ _ rfl (by decide) (.blank rfl .nil) .nil
    have isDisplay : StringList.IsDisplay ["x", "y"] "['x',\n'y']" :=
      ⟨('[', ']'), by decide, _, .more first (.last second), rfl⟩
    refine ⟨_, _, _, "\n__deprecated__ = old\nlater  = end # x\nold = later", given, isDisplay, ?_⟩
    rw [texts]
    decide
  have between : IsGivenLast sampleHops "later" " end # x" 5 :=
    isGivenLast_of_line texts roots "later  " rfl rfl (by decide) (by decide)
      (by decide) (by decide)
  have isName : IsNameValue "end" " end # x" :=
    ⟨by decide, [' '], [' '], "# x", rfl, Text.isMargin_spaces 1, Text.isMargin_spaces 1,
      Or.inr ⟨_, rfl⟩⟩
  have second : Chain sampleHops 2 "old" "end" :=
    (Chain.cons between isName .nil).ofLine texts roots 6 rfl rfl (by decide) (by decide)
  have whole : Chain sampleHops 3 "__deprecated__" "end" :=
    second.ofLine texts roots 4 rfl rfl (by decide) (by decide)
  have member : ("__deprecated__".toList, deprecated) ∈ listNames :=
    List.mem_cons_of_mem _ List.mem_cons_self
  have near : 3 < maxHops := by decide
  exact ⟨near, (ofSource_chain member whole).1 near _ isList⟩

/-- A list behind as many names as the bound allows is not found. -/
theorem not_forall_chain_within_bound :
    ¬ ∀ name list, (name, list) ∈ listNames → ∀ source last : Text, ∀ hops items,
      Chain source hops name last → hops ≤ maxHops → IsGivenList source last items →
        list (ofSource source) = items := by
  intro all
  let source : Text := "__autodoc_excludes__ = a\na = b\nb = c\nc = d\nd = ['x']"
  have texts : Text.lines source =
      ["__autodoc_excludes__ = a", "a = b", "b = c", "c = d", "d = ['x']"] := by decide +kernel
  have roots : (Outline.ofSource source).map OutlineNode.heading =
      [(.assignment ["__autodoc_excludes__"], 1, 0), (.assignment ["a"], 2, 0),
        (.assignment ["b"], 3, 0), (.assignment ["c"], 4, 0), (.assignment ["d"], 5, 0)] := by
    decide +kernel
  have third : Chain source 1 "c" "d" :=
    Chain.nil.ofLine texts roots 4 rfl rfl (by decide) (by decide)
  have second : Chain source 2 "b" "d" :=
    third.ofLine texts roots 3 rfl rfl (by decide) (by decide)
  have first : Chain source 3 "a" "d" :=
    second.ofLine texts roots 2 rfl rfl (by decide) (by decide)
  have whole : Chain source 4 "__autodoc_excludes__" "d" :=
    first.ofLine texts roots 1 rfl rfl (by decide) (by decide)
  have given : IsGivenLast source "d" " ['x']" 5 :=
    isGivenLast_of_line texts roots "d " rfl rfl (by decide) (by decide) (by decide)
      (by decide)
  have element : StringList.IsElement "x" "'x'" :=
    @StringList.IsElement.mk "x" '\x27' _ _ rfl (by decide) .nil .nil
  have isDisplay : StringList.IsDisplay ["x"] "['x']" :=
    ⟨('[', ']'), by decide, _, .last element, rfl⟩
  have isList : IsGivenList source "d" ["x"] := by
    refine ⟨_, _, _, [], given, isDisplay, ?_⟩
    rw [texts]
    decide
  have found := all _ _ List.mem_cons_self source "d" 4 ["x"] whole (Nat.le_refl 4) isList
  rw [whole.list_eq_nil List.mem_cons_self (Nat.le_refl 4)] at found
  cases found

end ModuleMembers

end DocMarkup
