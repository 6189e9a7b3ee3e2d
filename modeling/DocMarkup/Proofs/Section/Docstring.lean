import DocMarkup.Section.Basic

namespace DocMarkup

theorem Block.length_dedent (lines : Block) : (Block.dedent lines).length = lines.length :=
  List.length_map _

namespace Entry

def docstring (entry : Entry) : Block :=
  (Field.headAndText entry.header).2 :: Block.dedent entry.block

theorem length_docstring (entry : Entry) : entry.docstring.length = entry.block.length + 1 := by
  rw [docstring, List.length_cons, Block.length_dedent]

theorem length_block_lt {scope : Scope} {bound : Option Nat} {lines : Block} :
    ∀ entry ∈ (Entry.readFrom scope bound lines).1, entry.block.length < lines.length := by
  fun_induction Entry.readFrom scope bound lines with
  | case1 => simp
  | case2 lines ends first others ih =>
    have parts : first.1.block.length + 1 + first.2.length ≤ lines.length :=
      Entry.length_take_le scope bound (fun empty => ends (by rw [empty]; rfl))
    intro entry member
    rcases List.mem_cons.mp member with rfl | member
    · omega
    · have := ih entry member
      omega

end Entry

namespace Field

variable {typeMarkup : TypeMarkup} {describe describe' : Block → Block}

def bodyDocstring? : Block → Option Block
  | [] => none
  | first :: rest =>
    match first.splitColon? with
    | some (_, after) => some (Block.dedent (if after.isEmpty then rest else after :: rest))
    | none => some (Block.dedent (first :: rest))

theorem length_bodyDocstring_le {body inner : Block} (h : bodyDocstring? body = some inner) :
    inner.length ≤ body.length := by
  cases body with
  | nil => simp [bodyDocstring?] at h
  | cons first rest =>
    simp only [bodyDocstring?] at h
    split at h
    · cases h
      rw [Block.length_dedent]
      split <;> simp
    · cases h
      exact Nat.le_of_eq (Block.length_dedent _)

theorem ofEntries_congr {style : EntryStyle} {entries : List Entry}
    (agree : ∀ inner ∈ entries.map Entry.docstring, describe inner = describe' inner) :
    ofEntries typeMarkup describe style entries = ofEntries typeMarkup describe' style entries := by
  rw [ofEntries, ofEntries, List.flatMap_def, List.flatMap_def]
  refine congrArg List.flatten (List.map_congr_left fun entry member => ?_)
  have same : describe entry.docstring = describe' entry.docstring :=
    agree _ (List.mem_map_of_mem member)
  exact congrArg (fun description => separate style
    { ofEntry typeMarkup describe style entry with description }) same

theorem ofBody?_congr {body : Block}
    (agree : ∀ inner ∈ bodyDocstring? body, describe inner = describe' inner) :
    ofBody? typeMarkup describe body = ofBody? typeMarkup describe' body := by
  cases body with
  | nil => rfl
  | cons first rest =>
    simp only [ofBody?, bodyDocstring?] at agree ⊢
    cases split : first.splitColon? with
    | none =>
      rw [split] at agree
      simp only [agree _ rfl]
    | some parts =>
      rw [split] at agree
      simp only [agree _ rfl]

end Field

def Scope.bodyDocstrings (scope : Scope) (lines : Block) : List Block :=
  (Field.bodyDocstring? (Block.dedent (scope.takeAll lines).1)).toList

theorem Scope.length_bodyDocstrings_le {scope : Scope} {lines inner : Block}
    (member : inner ∈ scope.bodyDocstrings lines) : inner.length ≤ lines.length := by
  have short := Field.length_bodyDocstring_le (Option.mem_toList.mp member)
  rw [Block.length_dedent] at short
  exact Nat.le_trans short (scope.length_taken_le lines)

namespace SectionContext

variable (context : SectionContext)

def entryDocstrings (style : EntryStyle) (lines : Block) : List Block :=
  (Entry.read (context.scope lines) (context.headerBound style) lines).1.map Entry.docstring

def docstrings (strategy : Strategy) (lines : Block) : List Block :=
  match strategy with
  | .fields _ | .attributes => context.entryDocstrings named lines
  | .params | .keywordParams => context.entryDocstrings shared lines
  | .raises => context.entryDocstrings errors lines
  | .returnsLike _ requireType =>
    (context.scope lines).bodyDocstrings (if requireType then withColon lines else lines)
  | .returns => (context.scope lines).bodyDocstrings lines
  | .admonition _ | .notice _ | .rubric => []

variable {context}

theorem length_entryDocstrings_le {style : EntryStyle} {lines inner : Block}
    (member : inner ∈ context.entryDocstrings style lines) : inner.length ≤ lines.length := by
  obtain ⟨entry, taken, rfl⟩ := List.mem_map.mp member
  rw [Entry.length_docstring]
  exact Nat.le_trans (Entry.length_block_lt entry taken) (Block.length_skipBlanks_le lines)

theorem length_docstrings_le {strategy : Strategy} {lines inner : Block}
    (member : inner ∈ context.docstrings strategy lines) : inner.length ≤ lines.length := by
  cases strategy with
  | fields => exact length_entryDocstrings_le member
  | returnsLike label requireType =>
    cases requireType with
    | false => exact Scope.length_bodyDocstrings_le member
    | true => exact length_withColon lines ▸ Scope.length_bodyDocstrings_le member
  | admonition => cases member
  | params => exact length_entryDocstrings_le member
  | keywordParams => exact length_entryDocstrings_le member
  | returns => exact Scope.length_bodyDocstrings_le member
  | raises => exact length_entryDocstrings_le member
  | attributes => exact length_entryDocstrings_le member
  | notice => cases member
  | rubric => cases member

section Agreement

variable {describe' : Block → Block}

theorem fields_congr {style : EntryStyle} {lines : Block}
    (agree : ∀ inner ∈ context.entryDocstrings style lines,
      context.describe inner = describe' inner) :
    context.fields style lines = { context with describe := describe' }.fields style lines :=
  Prod.ext (Field.ofEntries_congr agree) rfl

theorem bodyField_congr {scope : Scope} {lines : Block}
    (agree : ∀ inner ∈ scope.bodyDocstrings lines,
      context.describe inner = describe' inner) :
    context.bodyField scope lines =
      { context with describe := describe' }.bodyField scope lines :=
  Prod.ext (Field.ofBody?_congr fun inner member => agree inner (Option.mem_toList.mpr member)) rfl

theorem write_congr {strategy : Strategy} {lines : Block}
    (agree : ∀ inner ∈ context.docstrings strategy lines,
      context.describe inner = describe' inner) (title : Text) :
    context.write strategy title lines =
      { context with describe := describe' }.write strategy title lines := by
  cases strategy with
  | fields label => simp only [write, fields_congr agree]
  | returnsLike label requireType =>
    simp only [write, bodyField_congr agree]
    rfl
  | admonition directive => rfl
  | params => simp only [write, fields_congr agree]
  | keywordParams => simp only [write, fields_congr agree]
  | returns =>
    simp only [write, bodyField_congr agree]
    rfl
  | raises => simp only [write, fields_congr agree]
  | attributes => simp only [write, fields_congr agree]
  | notice directive => rfl
  | rubric => rfl

end Agreement

end SectionContext

end DocMarkup
