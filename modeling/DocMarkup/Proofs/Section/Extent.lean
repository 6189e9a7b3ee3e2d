import DocMarkup.Proofs.Section.Header
import DocMarkup.Proofs.Text.Margin
import DocMarkup.Section.Basic

namespace DocMarkup

theorem cutBefore_append_left {α : Type} {stop : List α → Bool} {inner left : List α}
    (apart : ∀ a ∈ inner, ∀ rest rest', stop (a :: rest) = stop (a :: rest'))
    (ends : left ≠ [] → stop left = true) :
    cutBefore stop (inner ++ left) =
      ((cutBefore stop inner).1, (cutBefore stop inner).2 ++ left) := by
  induction inner with
  | nil =>
    cases left with
    | nil => rfl
    | cons a left => simp [cutBefore, ends (by simp)]
  | cons a inner ih =>
    have inside := ih fun b member => apart b (List.mem_cons_of_mem _ member)
    simp only [List.cons_append, cutBefore, apart a (by simp) (inner ++ left) inner]
    split
    · rfl
    · rw [inside]

theorem cutBefore_eq_self {α : Type} {stop : List α → Bool} {list : List α}
    (never : ∀ a ∈ list, ∀ rest, stop (a :: rest) = false) : cutBefore stop list = (list, []) := by
  induction list with
  | nil => rfl
  | cons a list ih =>
    rw [cutBefore, never a (by simp), ih fun b member => never b (List.mem_cons_of_mem _ member)]
    rfl

namespace Block

theorem leadingIndent_append_of_content {lines : Block} (h : ∃ line ∈ lines, line ≠ [])
    (left : Block) : leadingIndent (lines ++ left) = leadingIndent lines := by
  obtain ⟨line, member, content⟩ := h
  have found : (lines.find? (· ≠ [])).isSome := by
    rw [List.find?_isSome]
    exact ⟨line, member, by simpa using content⟩
  obtain ⟨first, found⟩ := Option.isSome_iff_exists.mp found
  rw [leadingIndent, leadingIndent, List.find?_append, found]
  rfl

theorem leadingIndent_append_of_blank {lines : Block} (h : ∀ line ∈ lines, line = [])
    (left : Block) : leadingIndent (lines ++ left) = leadingIndent left := by
  have nothing : lines.find? (· ≠ []) = none := by
    rw [List.find?_eq_none]
    simpa using h
  rw [leadingIndent, leadingIndent, List.find?_append, nothing]
  rfl

theorem exists_content_of_leadingIndent {lines : Block} (h : 0 < leadingIndent lines) :
    ∃ line ∈ lines, line ≠ [] := by
  unfold leadingIndent at h
  split at h
  · rename_i line found
    exact ⟨line, List.mem_of_find?_eq_some found, by simpa using List.find?_some found⟩
  · exact absurd h (Nat.lt_irrefl 0)

end Block

/-- Lines below a header: there is content, it is indented, and the first line of it is indented
least. -/
structure Block.IsBody (body : Block) : Prop where
  indented : 0 < body.leadingIndent
  solid : ∀ line ∈ body, line.Solid
  within : ∀ line ∈ body, line ≠ [] → body.leadingIndent ≤ line.indent

namespace Scope

variable {scope : Scope} {body left : Block}

def Contains (scope : Scope) (line : Text) : Prop := ∀ rest, scope.endsAt (line :: rest) = false

theorem contains_of_indent {registry : Registry} {n : Nat} {line : Text} (positive : 0 < n)
    (solid : line.Solid) (deep : line ≠ [] → n ≤ line.indent) :
    (⟨registry, some n⟩ : Scope).Contains line := by
  intro rest
  by_cases blank : line = []
  · subst blank
    rfl
  · have indented : 0 < line.indent := Nat.lt_of_lt_of_le positive (deep blank)
    have inside : line.isIndented n = true := (solid.isIndented_iff blank).mpr (deep blank)
    simp [endsAt, leaves, Registry.headerAt?_of_indented indented, inside]

theorem skipBlanks_of_endsAt (ends : scope.endsAt left = true) :
    Block.skipBlanks left = left ∧ Block.leadingBlanks left = [] := by
  cases left with
  | nil => exact ⟨rfl, rfl⟩
  | cons line rest =>
    have content : line ≠ [] := by
      rintro rfl
      cases h : scope.bodyIndent <;> simp [endsAt, leaves, Registry.headerAt?_blank, h] at ends
    simp [Block.skipBlanks, Block.leadingBlanks, content]

theorem skipBlanks_append (ends : scope.endsAt left = true) :
    Block.skipBlanks (body ++ left) = Block.skipBlanks body ++ left := by
  have skip := (skipBlanks_of_endsAt ends).1
  unfold Block.skipBlanks at skip ⊢
  rw [List.dropWhile_append, skip]
  split
  · rename_i empty
    rw [List.isEmpty_iff.mp empty, List.nil_append]
  · rfl

theorem takeAll_append (inside : ∀ line ∈ body, scope.Contains line)
    (ends : scope.endsAt left = true) :
    scope.takeAll (body ++ left) = (Block.skipBlanks body, left) := by
  obtain ⟨skip, blanks⟩ := skipBlanks_of_endsAt ends
  have never : ∀ line ∈ Block.skipBlanks body, scope.Contains line :=
    fun line member => inside line (Block.skipBlanks_subset body member)
  have cut : cutBefore scope.endsAt (Block.skipBlanks body ++ left) =
      (Block.skipBlanks body, left) := by
    rw [cutBefore_append_left (fun line member rest rest' => by
      rw [never line member rest, never line member rest']) (fun _ => ends), cutBefore_eq_self never]
    rfl
  simp [takeAll, skipBlanks_append ends, cut, skip, blanks]

theorem takeAll_eq_self (inside : ∀ line ∈ body, scope.Contains line) :
    scope.takeAll body = (Block.skipBlanks body, []) := by
  have nothing : scope.endsAt [] = true := rfl
  simpa using takeAll_append inside nothing

theorem takeIndented_append (inside : ∀ line ∈ body, scope.Contains line)
    (ends : scope.endsAt left = true) (n : Nat) :
    scope.takeIndented n (body ++ left) =
      ((scope.takeIndented n body).1, (scope.takeIndented n body).2 ++ left) := by
  apply cutBefore_append_left
  · intro line member rest rest'
    simp [endsBlockAt, inside line member rest, inside line member rest']
  · intro nonempty
    cases left with
    | nil => contradiction
    | cons line left => simp [endsBlockAt, ends]

end Scope

namespace Entry

variable {scope : Scope} {body left : Block}

theorem unwrap_eq_self {line : Text} (whole : Wrapped.isStart line = false) (bound : Option Nat)
    (rest : Block) : unwrap bound (line :: rest) = line :: rest := by
  cases bound with
  | none => rfl
  | some n => simp [unwrap, Wrapped.join, whole]

theorem unwrap_tail_suffix (bound : Option Nat) {lines : Block} {header : Text} {below : Block}
    (h : unwrap bound lines = header :: below) : below <:+ lines := by
  cases bound with
  | none => exact ⟨[header], h.symm⟩
  | some n =>
    cases lines with
    | nil => contradiction
    | cons line rest =>
      simp only [unwrap, Wrapped.join] at h
      split at h
      · split at h
        · obtain ⟨-, rfl⟩ := List.cons.inj h
          exact (List.drop_suffix _ _).trans (List.suffix_cons _ _)
        · exact ⟨[header], h.symm⟩
      · exact ⟨[header], h.symm⟩

theorem take_left_suffix (scope : Scope) (bound : Option Nat) (lines : Block) :
    (take scope bound lines).2 <:+ lines := by
  unfold take
  split
  · exact List.nil_suffix
  · rename_i header below unwrapped
    exact .trans ⟨_, cutBefore_append (scope.endsBlockAt (header.indent + 1)) below⟩
      (unwrap_tail_suffix bound unwrapped)

theorem take_append {line : Text} (whole : Wrapped.isStart line = false)
    (inside : ∀ line ∈ body, scope.Contains line) (ends : scope.endsAt left = true)
    (bound : Option Nat) :
    take scope bound (line :: body ++ left) =
      ((take scope bound (line :: body)).1, (take scope bound (line :: body)).2 ++ left) := by
  simp only [take, List.cons_append, unwrap_eq_self whole, Scope.takeIndented_append inside ends]

theorem readFrom_append (bound : Option Nat) (inside : ∀ line ∈ body, scope.Contains line)
    (whole : ∀ line ∈ body, Wrapped.isStart line = false) (ends : scope.endsAt left = true) :
    readFrom scope bound (body ++ left) = ((readFrom scope bound body).1, left) := by
  fun_induction readFrom scope bound body with
  | case1 lines finished =>
    cases lines with
    | nil => rw [List.nil_append, readFrom, dif_pos ends]
    | cons line rest => simp [inside line (by simp) rest] at finished
  | case2 lines open_ first others ih =>
    obtain ⟨line, rest, rfl⟩ : ∃ line rest, lines = line :: rest :=
      List.exists_cons_of_ne_nil fun empty => open_ (by rw [empty]; rfl)
    have suffix : first.2 <:+ line :: rest := take_left_suffix scope bound (line :: rest)
    have behind := ih (fun line member => inside line (suffix.subset member))
      (fun line member => whole line (suffix.subset member))
    have taken := take_append (whole line (by simp))
      (fun line member => inside line (List.mem_cons_of_mem _ member)) ends bound
    have continues : ¬ scope.endsAt (line :: rest ++ left) = true := by
      rw [List.cons_append, inside line (by simp)]
      simp
    rw [readFrom, dif_neg continues]
    simp only [taken]
    rw [behind]

theorem readFrom_left (bound : Option Nat) (inside : ∀ line ∈ body, scope.Contains line) :
    (readFrom scope bound body).2 = [] := by
  fun_induction readFrom scope bound body with
  | case1 lines ends =>
    cases lines with
    | nil => rfl
    | cons line rest => simp [inside line (by simp) rest] at ends
  | case2 lines ends first others ih =>
    exact ih fun line member => inside line ((take_left_suffix scope bound lines).subset member)

end Entry

namespace Block.IsBody

variable {body : Block} (isBody : body.IsBody)

include isBody

theorem contains (registry : Registry) :
    ∀ line ∈ body, (⟨registry, some body.leadingIndent⟩ : Scope).Contains line :=
  fun line member => Scope.contains_of_indent isBody.indented (isBody.solid line member)
    (isBody.within line member)

theorem ne_nil : body ≠ [] := by
  rintro rfl
  exact absurd isBody.indented (Nat.lt_irrefl 0)

end Block.IsBody

namespace SectionContext

variable (context : SectionContext) {body left : Block}

theorem withColon_append (nonempty : body ≠ []) :
    withColon (body ++ left) = withColon body ++ left := by
  obtain ⟨line, rest, rfl⟩ := List.exists_cons_of_ne_nil nonempty
  simp only [withColon, List.cons_append]
  split <;> rfl

theorem isBody_withColon (isBody : body.IsBody) :
    Block.IsBody (withColon body) ∧ Block.leadingIndent (withColon body) = body.leadingIndent := by
  obtain ⟨line, rest, rfl⟩ := List.exists_cons_of_ne_nil isBody.ne_nil
  simp only [withColon]
  split
  · exact ⟨isBody, rfl⟩
  · rename_i open_
    have content : line ≠ [] := by
      rintro rfl
      simp at open_
    have same : (line ++ ":").indent = line.indent :=
      congrArg List.length
        (Text.margin_append_of_content (isBody.solid line (by simp) content) _)
    have first : Block.leadingIndent ((line ++ ":") :: rest) = Block.leadingIndent (line :: rest) := by
      simpa [Block.leadingIndent, content] using same
    refine ⟨⟨first ▸ isBody.indented, ?_, ?_⟩, first⟩
    · rintro other (_ | member)
      · exact Text.solid_append_right (by decide)
      · exact isBody.solid other (List.mem_cons_of_mem _ (by assumption))
    · rw [first]
      rintro other (_ | member)
      · intro _
        rw [same]
        exact isBody.within line (by simp) content
      · exact isBody.within other (List.mem_cons_of_mem _ (by assumption))

theorem scope_append (isBody : body.IsBody) (left : Block) :
    context.scope (body ++ left) = ⟨context.registry, some body.leadingIndent⟩ := by
  rw [scope, Block.leadingIndent_append_of_content
    (Block.exists_content_of_leadingIndent isBody.indented)]

theorem fields_append (isBody : body.IsBody)
    (whole : ∀ line ∈ body, Wrapped.isStart line = false)
    (ends : (⟨context.registry, some body.leadingIndent⟩ : Scope).endsAt left = true)
    (style : EntryStyle) :
    context.fields style (body ++ left) = ((context.fields style body).1, left) := by
  have inside := isBody.contains context.registry
  have kept := Block.skipBlanks_subset body
  have entries := Entry.readFrom_append (context.headerBound style)
    (fun line member => inside line (kept member))
    (fun line member => whole line (kept member)) ends
  simp only [fields, Entry.read, scope_append context isBody, Scope.skipBlanks_append ends, entries]
  rfl

theorem body_append (isBody : body.IsBody)
    (ends : (⟨context.registry, some body.leadingIndent⟩ : Scope).endsAt left = true) :
    context.body (body ++ left) = ((context.body body).1, left) := by
  have inside := isBody.contains context.registry
  rw [SectionContext.body, scope_append context isBody, Scope.takeAll_append inside ends,
    SectionContext.body, scope, Scope.takeAll_eq_self inside]

theorem bodyField_append {scope : Scope} (inside : ∀ line ∈ body, scope.Contains line)
    (ends : scope.endsAt left = true) :
    context.bodyField scope (body ++ left) = ((context.bodyField scope body).1, left) := by
  simp only [bodyField, Scope.takeAll_append inside ends, Scope.takeAll_eq_self inside]

theorem returnsLike_append (isBody : body.IsBody)
    (ends : (⟨context.registry, some body.leadingIndent⟩ : Scope).endsAt left = true)
    (requireType : Bool) :
    context.bodyField (context.scope (body ++ left))
        (if requireType then withColon (body ++ left) else body ++ left) =
      ((context.bodyField (context.scope body)
        (if requireType then withColon body else body)).1, left) := by
  rw [scope_append context isBody]
  cases requireType with
  | false => exact bodyField_append context (isBody.contains context.registry) ends
  | true =>
    obtain ⟨changed, indent⟩ := isBody_withColon isBody
    have inside := changed.contains context.registry
    rw [indent] at inside
    simp only [↓reduceIte, withColon_append isBody.ne_nil]
    exact bodyField_append context inside ends

/-- A section is written from its body alone, and the lines behind the body are left as they
are. -/
theorem write_append (isBody : body.IsBody)
    (whole : ∀ line ∈ body, Wrapped.isStart line = false)
    (ends : (⟨context.registry, some body.leadingIndent⟩ : Scope).endsAt left = true)
    (strategy : Strategy) (title : Text) :
    context.write strategy title (body ++ left) =
      ((context.write strategy title body).1, left) := by
  have fields := fields_append context isBody whole ends
  have text := body_append context isBody ends
  have returns := returnsLike_append context isBody ends
  cases strategy with
  | fields label => simp only [write, fields]; rfl
  | returnsLike label requireType => simp only [write, returns requireType]; rfl
  | admonition directive => simp only [write, text]; rfl
  | params => simp only [write, fields]; rfl
  | keywordParams => simp only [write, fields]; rfl
  | returns =>
    have plain := returns false
    simp only [Bool.false_eq_true, ↓reduceIte] at plain
    simp only [write, plain]
    rfl
  | raises => simp only [write, fields]; rfl
  | attributes => simp only [write, fields]; rfl
  | notice directive => simp only [write, text]; rfl
  | rubric => simp only [write, text]; rfl

theorem write_left (isBody : body.IsBody) (strategy : Strategy) (title : Text) :
    (context.write strategy title body).2 = [] := by
  have inside := isBody.contains context.registry
  have kept := Block.skipBlanks_subset body
  have fields : ∀ style, (context.fields style body).2 = [] := fun style =>
    Entry.readFrom_left (context.headerBound style) fun line member =>
      inside line (kept member)
  have text : (context.body body).2 = [] := congrArg Prod.snd (Scope.takeAll_eq_self inside)
  have single : (context.bodyField (context.scope body) body).2 = [] := text
  cases strategy with
  | fields label => exact fields named
  | returnsLike label requireType =>
    cases requireType with
    | false => exact single
    | true =>
      obtain ⟨changed, indent⟩ := isBody_withColon isBody
      have inside := changed.contains context.registry
      rw [indent] at inside
      exact congrArg Prod.snd (Scope.takeAll_eq_self inside)
  | admonition directive => exact text
  | params => exact fields shared
  | keywordParams => exact fields shared
  | returns => exact single
  | raises => exact fields errors
  | attributes => exact fields named
  | notice directive => exact text
  | rubric => exact text

end SectionContext

end DocMarkup
