import DocMarkup.Proofs.Field.Deepen
import DocMarkup.Proofs.Section.Extent

namespace DocMarkup

open Text

theorem cutBefore_map {α : Type} {f : α → α} {stop stop' : List α → Bool} {list : List α}
    (same : ∀ a ∈ list, ∀ rest rest', stop' (f a :: rest') = stop (a :: rest)) :
    cutBefore stop' (list.map f) = (cutBefore stop list).map (List.map f) (List.map f) := by
  induction list with
  | nil => rfl
  | cons a list ih =>
    have behind := ih fun b member => same b (List.mem_cons_of_mem _ member)
    rw [List.map_cons, cutBefore, cutBefore, same a List.mem_cons_self list (list.map f), behind]
    split <;> rfl

theorem Wrapped.solid_join {lines : Block} (solid : ∀ line ∈ lines, line.Solid) (bound : Nat) :
    ∀ line ∈ join bound lines, line.Solid := by
  cases lines with
  | nil => exact solid
  | cons line rest =>
    simp only [join]
    split
    · rename_i start
      split
      · rename_i count found
        rintro other (_ | member)
        · intro _
          have kept := mem_joined (by decide) (opens_of_isStart start) (rest.take count)
          exact indent_lt_length_iff.mpr ⟨'(', List.mem_append_right _ kept, by decide⟩
        · have inside := (List.drop_sublist count rest).subset ‹_›
          exact solid other (List.mem_cons_of_mem _ inside)
      · exact solid
    · exact solid

theorem Entry.solid_unwrap {lines : Block} (solid : ∀ line ∈ lines, line.Solid)
    (bound : Option Nat) : ∀ line ∈ unwrap bound lines, line.Solid := by
  cases bound with
  | none => exact solid
  | some bound => exact Wrapped.solid_join solid bound

theorem Entry.unwrap_deepen (n : Nat) (bound : Option Nat) (lines : Block) :
    unwrap bound (lines.deepen n) = Block.deepen n (unwrap bound lines) := by
  cases bound with
  | none => rfl
  | some bound => exact Wrapped.join_deepen n bound lines

/-- Solid lines that are indented, so that two scopes contain them before and after they are
deepened. -/
structure Block.Movable (n : Nat) (scope scope' : Scope) (lines : Block) : Prop where
  solid : ∀ line ∈ lines, line.Solid
  indented : ∀ line ∈ lines, line ≠ [] → 0 < line.indent
  inside : ∀ line ∈ lines, scope.Contains line
  inside' : ∀ line ∈ lines.deepen n, scope'.Contains line

theorem Block.Movable.of_subset {n : Nat} {scope scope' : Scope} {lines part : Block}
    (movable : lines.Movable n scope scope') (subset : part ⊆ lines) :
    part.Movable n scope scope' where
  solid line member := movable.solid line (subset member)
  indented line member := movable.indented line (subset member)
  inside line member := movable.inside line (subset member)
  inside' line member := by
    obtain ⟨before, within, rfl⟩ := List.mem_map.mp member
    exact movable.inside' _ (List.mem_map_of_mem (subset within))

section Moved

variable {n : Nat} {scope scope' : Scope} {lines : Block} (movable : lines.Movable n scope scope')

include movable

theorem Scope.takeIndented_deepen {header : Text} (solid : header.Solid) :
    scope'.takeIndented ((header.deepen n).indent + 1) (lines.deepen n) =
      (scope.takeIndented (header.indent + 1) lines).map (Block.deepen n) (Block.deepen n) := by
  apply cutBefore_map
  intro line member rest rest'
  have here := movable.inside line member rest
  have there := movable.inside' (line.deepen n) (List.mem_map_of_mem member) rest'
  by_cases empty : line = []
  · subst empty
    simpa [endsBlockAt, deepen_nil, here] using there
  · have nonempty := deepen_ne_nil empty n
    have solidLine := movable.solid line member
    have moved := indent_deepen (solidLine.trim_ne_nil empty) n
    have positive := movable.indented line member empty
    -- A header without content stays where it is, and then all the lines are deeper than it.
    have deeper : (header.deepen n).indent + 1 ≤ (line.deepen n).indent ↔
        header.indent + 1 ≤ line.indent := by
      by_cases blank : header = []
      · have zero : Text.indent [] = 0 := rfl
        rw [blank, deepen_nil, zero, moved]
        omega
      · rw [indent_deepen (solid.trim_ne_nil blank), moved]
        omega
    have indented : (line.deepen n).isIndented ((header.deepen n).indent + 1) =
        line.isIndented (header.indent + 1) := by
      rw [Bool.eq_iff_iff, (solidLine.deepen n).isIndented_iff nonempty,
        solidLine.isIndented_iff empty, deeper]
    have filled : (line.deepen n).isEmpty = line.isEmpty := by
      rw [List.isEmpty_eq_false_iff.mpr nonempty, List.isEmpty_eq_false_iff.mpr empty]
    simp [endsBlockAt, here, there, indented, filled]

theorem Entry.take_deepen (bound : Option Nat) :
    take scope' bound (lines.deepen n) =
      (take scope bound lines).map (Entry.deepen n) (Block.deepen n) := by
  unfold take
  rw [unwrap_deepen]
  cases unwrapped : unwrap bound lines with
  | nil => rfl
  | cons header below =>
    have solid : header.Solid :=
      solid_unwrap movable.solid bound header (by rw [unwrapped]; exact List.mem_cons_self)
    have part := movable.of_subset (unwrap_tail_suffix bound unwrapped).subset
    simp only [Block.deepen_cons, Scope.takeIndented_deepen part solid]
    rfl

theorem Entry.readFrom_deepen (bound : Option Nat) :
    (readFrom scope' bound (lines.deepen n)).1 =
      (readFrom scope bound lines).1.map (Entry.deepen n) := by
  fun_induction readFrom scope bound lines with
  | case1 lines ends =>
    cases lines with
    | nil =>
      rw [readFrom]
      rfl
    | cons line rest => simp [movable.inside line List.mem_cons_self rest] at ends
  | case2 lines open_ first others ih =>
    obtain ⟨line, rest, rfl⟩ : ∃ line rest, lines = line :: rest :=
      List.exists_cons_of_ne_nil fun empty => open_ (by rw [empty]; rfl)
    have continues : ¬ scope'.endsAt (Block.deepen n (line :: rest)) = true := by
      rw [Block.deepen_cons, movable.inside' (line.deepen n) List.mem_cons_self]
      simp
    have suffix : first.2 <:+ line :: rest := take_left_suffix scope bound (line :: rest)
    have behind := ih (movable.of_subset suffix.subset)
    rw [readFrom, dif_neg continues, Entry.take_deepen movable bound]
    simp only [Prod.map, List.map_cons]
    rw [behind]

end Moved

theorem Entry.block_subset (scope : Scope) (bound : Option Nat) (lines : Block) :
    ∀ entry ∈ (readFrom scope bound lines).1, entry.block ⊆ lines := by
  fun_induction readFrom scope bound lines with
  | case1 =>
    intro entry none
    cases none
  | case2 lines open_ first others ih =>
    intro entry member
    rcases List.mem_cons.mp member with rfl | later
    · simp only [first, take]
      split
      · exact List.nil_subset _
      · rename_i header below unwrapped
        have parts := cutBefore_append (scope.endsBlockAt (header.indent + 1)) below
        intro line member
        exact (unwrap_tail_suffix bound unwrapped).subset (parts ▸ List.mem_append_left _ member)
    · exact List.Subset.trans (ih entry later) (take_left_suffix scope bound lines).subset

namespace Directive

variable {lines : Block} (solid : ∀ line ∈ lines, line.Solid) (n : Nat)

include solid

theorem solid_stripBlanks : ∀ line ∈ Block.stripBlanks lines, line.Solid :=
  fun line member => solid line (Block.stripBlanks_subset lines member)

theorem notice_deepen (name : Text) : notice name (lines.deepen n) = notice name lines := by
  have stripped := solid_stripBlanks solid
  rw [notice, Block.stripBlanks_deepen, notice]
  match Block.stripBlanks lines, stripped with
  | [], _ => rfl
  | [line], _ => simp [Block.deepen, trim_deepen]
  | first :: second :: rest, stripped =>
    have body := Block.dedent_deepen stripped n
    simp only [Block.deepen_cons] at body ⊢
    simp only [Directive.body, body]

theorem admonition_deepen (name : Text) :
    admonition name (lines.deepen n) = admonition name lines := by
  rw [admonition, Block.dedent_deepen solid, admonition]

theorem rubric_deepen (title : Text) : rubric title (lines.deepen n) = rubric title lines := by
  rw [rubric, Block.stripBlanks_deepen, Block.dedent_deepen (solid_stripBlanks solid), rubric]

end Directive

namespace Block.IsBody

variable {body : Block} (isBody : body.IsBody) (n : Nat)

include isBody

theorem leadingIndent_deepen : leadingIndent (body.deepen n) = n + body.leadingIndent :=
  Block.leadingIndent_deepen isBody.solid (exists_content_of_leadingIndent isBody.indented) n

theorem deepen : Block.IsBody (body.deepen n) where
  indented := by
    have positive := isBody.indented
    rw [isBody.leadingIndent_deepen n]
    omega
  solid := solid_deepen isBody.solid n
  within := by
    intro line member nonempty
    obtain ⟨before, inside, rfl⟩ := List.mem_map.mp member
    have content : before ≠ [] := fun empty => nonempty (deepen_eq_nil_iff.mpr empty)
    have deep := isBody.within before inside content
    rw [isBody.leadingIndent_deepen n, indent_deepen ((isBody.solid before inside).trim_ne_nil content)]
    omega

theorem movable (registry : Registry) :
    body.Movable n ⟨registry, some body.leadingIndent⟩
      ⟨registry, some (leadingIndent (body.deepen n))⟩ where
  solid := isBody.solid
  indented line member nonempty :=
    Nat.lt_of_lt_of_le isBody.indented (isBody.within line member nonempty)
  inside := isBody.contains registry
  inside' := (isBody.deepen n).contains registry

end Block.IsBody

namespace SectionContext

variable (context : SectionContext) {body : Block} (isBody : body.IsBody) (n : Nat)

include isBody

theorem fields_deepen (style : EntryStyle) :
    (context.fields style (body.deepen n)).1 = (context.fields style body).1 := by
  have movable := (isBody.movable n context.registry).of_subset (Block.skipBlanks_subset body)
  have entries := Entry.readFrom_deepen movable (context.headerBound style)
  have solid : ∀ entry ∈ (Entry.readFrom ⟨context.registry, some body.leadingIndent⟩
      (context.headerBound style) (Block.skipBlanks body)).1, ∀ line ∈ entry.block, line.Solid :=
    fun entry member line inside =>
      movable.solid line (Entry.block_subset _ _ _ entry member inside)
  simp only [fields, Entry.read, scope, Block.skipBlanks_deepen, Prod.map]
  rw [entries, Field.ofEntries_deepen _ _ _ solid]

theorem body_deepen : (context.body (body.deepen n)).1 = Block.deepen n (context.body body).1 := by
  rw [SectionContext.body, scope, Scope.takeAll_eq_self ((isBody.deepen n).contains _),
    SectionContext.body, scope, Scope.takeAll_eq_self (isBody.contains _), Block.skipBlanks_deepen]

theorem solid_body : ∀ line ∈ (context.body body).1, line.Solid := by
  intro line member
  rw [SectionContext.body, scope, Scope.takeAll_eq_self (isBody.contains _)] at member
  exact isBody.solid line (Block.skipBlanks_subset body member)

theorem withColon_deepen : withColon (body.deepen n) = Block.deepen n (withColon body) := by
  obtain ⟨line, rest, rfl⟩ := List.exists_cons_of_ne_nil isBody.ne_nil
  by_cases empty : line = []
  · subst empty
    rfl
  · have content := (isBody.solid line List.mem_cons_self).trim_ne_nil empty
    have nonempty := deepen_ne_nil empty n
    have ends : (line.deepen n).endsWith ":" = line.endsWith ":" := by
      obtain ⟨front, c, rfl⟩ := (List.eq_nil_or_concat' line).resolve_left empty
      rw [deepen_of_content content, ← List.append_assoc]
      exact (Wrapped.endsWith_concat _ c ':').trans (Wrapped.endsWith_concat front c ':').symm
    have colon : (line ++ ":").deepen n = line.deepen n ++ ":" := by
      have member : ':' ∈ trim (line ++ ":") := (mem_trim_iff (by decide)).mpr (by simp)
      rw [deepen_of_content (List.ne_nil_of_mem member), deepen_of_content content,
        List.append_assoc]
    rw [Block.deepen_cons]
    simp only [withColon, List.isEmpty_eq_false_iff.mpr nonempty,
      List.isEmpty_eq_false_iff.mpr empty, Bool.false_or, ends]
    split
    · rfl
    · rw [Block.deepen_cons, colon]

theorem bodyField_deepen {scope scope' : Scope} (inside : ∀ line ∈ body, scope.Contains line)
    (inside' : ∀ line ∈ body.deepen n, scope'.Contains line) :
    (context.bodyField scope' (body.deepen n)).1 = (context.bodyField scope body).1 := by
  have solid : ∀ line ∈ Block.skipBlanks body, line.Solid :=
    fun line member => isBody.solid line (Block.skipBlanks_subset body member)
  simp only [bodyField, Scope.takeAll_eq_self inside, Scope.takeAll_eq_self inside',
    Block.skipBlanks_deepen, Block.dedent_deepen solid]

theorem returnsLike_deepen (requireType : Bool) :
    (context.bodyField (context.scope (body.deepen n))
        (if requireType then withColon (body.deepen n) else body.deepen n)).1 =
      (context.bodyField (context.scope body)
        (if requireType then withColon body else body)).1 := by
  cases requireType with
  | false =>
    exact bodyField_deepen context isBody n (isBody.contains _) ((isBody.deepen n).contains _)
  | true =>
    obtain ⟨changed, indent⟩ := isBody_withColon isBody
    obtain ⟨changed', indent'⟩ := isBody_withColon (isBody.deepen n)
    have inside := changed.contains context.registry
    have inside' := changed'.contains context.registry
    rw [indent] at inside
    rw [indent', withColon_deepen isBody n] at inside'
    simp only [↓reduceIte, withColon_deepen isBody n]
    exact bodyField_deepen context changed n inside inside'

theorem write_deepen (strategy : Strategy) (title : Text) :
    (context.write strategy title (body.deepen n)).1 = (context.write strategy title body).1 := by
  have fields := fields_deepen context isBody n
  have text := body_deepen context isBody n
  have solid := solid_body context isBody
  have returns := returnsLike_deepen context isBody n
  cases strategy with
  | fields label => simp only [write, Prod.map, fields]
  | returnsLike label requireType => simp only [write, Prod.map, returns requireType]
  | admonition directive => simp only [write, Prod.map, text, Directive.admonition_deepen solid]
  | params => simp only [write, Prod.map, fields]
  | keywordParams => simp only [write, Prod.map, fields]
  | returns =>
    have plain := returns false
    simp only [Bool.false_eq_true, ↓reduceIte] at plain
    simp only [write, Prod.map, plain]
  | raises => simp only [write, Prod.map, fields]
  | attributes => simp only [write, Prod.map, fields]
  | notice directive => simp only [write, Prod.map, text, Directive.notice_deepen solid]
  | rubric => simp only [write, Prod.map, text, Directive.rubric_deepen solid]

end SectionContext

end DocMarkup
