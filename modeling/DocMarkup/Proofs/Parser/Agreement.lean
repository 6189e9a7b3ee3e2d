import DocMarkup.Parser

namespace DocMarkup

namespace Registry

/-- Every keyword has the same strategy in both registries, or none in either. -/
def Agrees (registry registry' : Registry) : Prop :=
  ∀ keyword, registry.get? keyword = registry'.get? keyword

theorem Agrees.headerAt?_eq {registry registry' : Registry} (agrees : registry.Agrees registry') :
    registry.headerAt? = registry'.headerAt? := by
  have same : registry.get? = registry'.get? := funext agrees
  funext lines
  cases lines with
  | nil => rfl
  | cons line rest => rw [headerAt?, same, headerAt?]

theorem Agrees.endsAt_eq {registry registry' : Registry} (agrees : registry.Agrees registry')
    (bodyIndent : Option Nat) :
    Scope.endsAt ⟨registry, bodyIndent⟩ = Scope.endsAt ⟨registry', bodyIndent⟩ := by
  funext lines
  cases lines with
  | nil => rfl
  | cons line rest =>
    simp only [Scope.endsAt, agrees.headerAt?_eq]
    rfl

end Registry

section Scopes

variable {scope scope' : Scope} (same : scope.endsAt = scope'.endsAt)

include same

theorem Scope.takeAll_congr (lines : Block) : scope.takeAll lines = scope'.takeAll lines := by
  rw [takeAll, same, takeAll]

theorem Scope.endsBlockAt_congr (n : Nat) : scope.endsBlockAt n = scope'.endsBlockAt n := by
  funext lines
  cases lines with
  | nil => rfl
  | cons line rest => rw [endsBlockAt, same, endsBlockAt]

theorem Entry.take_congr (bound : Option Nat) (lines : Block) :
    Entry.take scope bound lines = Entry.take scope' bound lines := by
  unfold Entry.take
  cases Entry.unwrap bound lines with
  | nil => rfl
  | cons header below => simp only [Scope.takeIndented, Scope.endsBlockAt_congr same]

theorem Entry.readFrom_congr (bound : Option Nat) (lines : Block) :
    Entry.readFrom scope bound lines = Entry.readFrom scope' bound lines := by
  fun_induction Entry.readFrom scope bound lines with
  | case1 lines ends => rw [Entry.readFrom, dif_pos (by rwa [← same])]
  | case2 lines inside first others ih =>
    rw [Entry.readFrom.eq_def scope', dif_neg (by rwa [← same])]
    have taken : Entry.take scope' bound lines = first := (Entry.take_congr same bound lines).symm
    have left : Entry.readFrom scope' bound first.2 = others := ih.symm
    simp only [taken, left]

end Scopes

namespace SectionContext

variable {context : SectionContext} {registry' : Registry}
  (agrees : context.registry.Agrees registry')

include agrees

theorem fields_agrees (style : EntryStyle) (lines : Block) :
    context.fields style lines = { context with registry := registry' }.fields style lines := by
  have ends := agrees.endsAt_eq (some (Block.leadingIndent lines))
  simp only [fields, scope, Entry.read, Entry.readFrom_congr ends]
  rfl

theorem body_agrees (lines : Block) :
    context.body lines = { context with registry := registry' }.body lines :=
  Scope.takeAll_congr (agrees.endsAt_eq _) lines

theorem bodyField_agrees (lines lines' : Block) :
    context.bodyField (context.scope lines) lines' =
      { context with registry := registry' }.bodyField
        ({ context with registry := registry' }.scope lines) lines' := by
  have taken := Scope.takeAll_congr (agrees.endsAt_eq (some (Block.leadingIndent lines))) lines'
  simp only [bodyField, scope, taken]

theorem write_agrees (strategy : Strategy) (title : Text) (lines : Block) :
    context.write strategy title lines =
      { context with registry := registry' }.write strategy title lines := by
  cases strategy with
  | fields label => simp only [write, fields_agrees agrees]
  | returnsLike label requireType => simp only [write, bodyField_agrees agrees]
  | admonition directive => simp only [write, body_agrees agrees]
  | params => simp only [write, fields_agrees agrees]
  | keywordParams => simp only [write, fields_agrees agrees]
  | returns => simp only [write, bodyField_agrees agrees]
  | raises => simp only [write, fields_agrees agrees]
  | attributes => simp only [write, fields_agrees agrees]
  | notice directive => simp only [write, body_agrees agrees]
  | rubric => simp only [write, body_agrees agrees]

end SectionContext

namespace Parser

variable {parser : Parser} {registry' : Registry} (agrees : parser.registry.Agrees registry')

include agrees

theorem takeText_agrees (started : Bool) (lines : Block) :
    parser.takeText started lines =
      { parser with registry := registry' }.takeText started lines := by
  have paragraph : parser.endsParagraphAt =
      { parser with registry := registry' }.endsParagraphAt := by
    funext lines
    cases lines with
    | nil => rfl
    | cons line rest => rw [endsParagraphAt, agrees.headerAt?_eq, endsParagraphAt]
  cases started with
  | false =>
    simp only [takeText, takeParagraph, paragraph, Bool.false_eq_true, ↓reduceIte]
  | true => exact Scope.takeAll_congr (agrees.endsAt_eq none) lines

theorem step_agrees (describe : Block → Block) (started : Bool) (lines : Block) :
    parser.step describe started lines =
      { parser with registry := registry' }.step describe started lines := by
  cases lines with
  | nil => rfl
  | cons line rest =>
    have written (strategy : Strategy) (title : Text) :
        (parser.sectionContext describe).write strategy title rest =
          { parser.sectionContext describe with registry := registry' }.write strategy title rest :=
      SectionContext.write_agrees agrees strategy title rest
    simp only [step, agrees.headerAt?_eq, takeText_agrees agrees, written]
    rfl

theorem runFrom_agrees (describe : Block → Block) (started : Bool) (lines : Block) :
    parser.runFrom describe started lines =
      { parser with registry := registry' }.runFrom describe started lines := by
  fun_induction parser.runFrom describe started lines with
  | case1 => rw [runFrom]
  | case2 started line rest written ih =>
    have same : { parser with registry := registry' }.step describe started (line :: rest) =
        written := (step_agrees agrees describe started (line :: rest)).symm
    rw [runFrom, same, ih]

theorem parseNested_agrees (depth : Nat) :
    parser.parseNested depth = { parser with registry := registry' }.parseNested depth := by
  induction depth with
  | zero => rfl
  | succ depth ih =>
    funext lines
    rw [parseNested, parseNested, ← ih, run, run, runFrom_agrees agrees]

theorem parseLines_agrees (lines : Block) :
    parser.parseLines lines = { parser with registry := registry' }.parseLines lines := by
  rw [parseLines, parseNested_agrees agrees, parseLines]

end Parser

end DocMarkup
