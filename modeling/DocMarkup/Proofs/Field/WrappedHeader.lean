import DocMarkup.Proofs.Field.TypedHeader

namespace DocMarkup

open Text

/-- The lines hold the header `name (type):` behind `margin`. The type is broken inside, and there may
be a break right behind the opening parenthesis. Lines below the first have any blanks around
their piece. -/
inductive Wraps (margin name type : Text) : Block → Prop
  | insideType {piece : Text} {pieces : List Text} {below : Block} : Layout type piece pieces →
      below.map Text.trim = pieces.map Text.trim →
      Wraps margin name type ((margin ++ name ++ " (" ++ piece) :: below)
  | behindOpening {piece : Text} {pieces : List Text} {below : Block} : Layout type piece pieces →
      below.map Text.trim = (piece :: pieces).map Text.trim →
      Wraps margin name type ((margin ++ name ++ " (") :: below)

namespace Wrapped

theorem isStart_header {margin name : Text} (blank : margin.IsMargin) (isName : IsName name)
    (inside : Text) :
    isStart (margin ++ name ++ " (" ++ inside) = inside.all fun c => c != ':' && c != ')' := by
  have starts := isName.margin_append (" (" ++ inside)
  have front : (margin ++ name ++ " (" ++ inside).trimStart = name ++ " (" ++ inside := by
    rw [List.append_assoc, List.append_assoc, trimStart_append blank, trimStart_eq_self starts,
      List.append_assoc]
  obtain ⟨stars, word, rfl, few, nonempty, characters⟩ := isName
  obtain ⟨c, word, rfl⟩ := List.exists_cons_of_ne_nil nonempty
  have first : isNameChar c = true := characters c List.mem_cons_self
  have notStar : c ≠ '*' := by
    rintro rfl
    revert first
    decide
  have dropped : dropStar (dropStar (List.replicate stars '*' ++ (c :: word) ++ " (" ++ inside)) =
      c :: word ++ ' ' :: '(' :: inside := by
    match stars, few with
    | 0, _ => simp [dropStar, notStar]
    | 1, _ => simp [dropStar, notStar]
    | 2, _ => simp [dropStar]
  have behind : (c :: word ++ ' ' :: '(' :: inside).dropWhile isNameChar = ' ' :: '(' :: inside := by
    rw [List.dropWhile_append_of_pos characters]
    exact List.dropWhile_cons_of_neg (by decide)
  have opening : trimStart (' ' :: '(' :: inside) = '(' :: inside := by
    simp [trimStart, isBlank, blankRanges, CodeRanges.holds]
  simp only [isStart, front, dropped, behind, opening]
  simp [first]

end Wrapped

def EndsClosed (rest : Text) (pieces : List Text) : Prop :=
  ∃ (front : List Text) (last : Text), pieces = front ++ [last ++ "):"] ∧ last ⊆ rest ∧
    ∀ p ∈ front, p ⊆ rest

theorem EndsClosed.cons {rest whole piece : Text} {pieces : List Text} (h : EndsClosed rest pieces)
    (tail : rest ⊆ whole) (first : piece ⊆ whole) : EndsClosed whole (piece :: pieces) := by
  obtain ⟨front, last, rfl, inside, within⟩ := h
  refine ⟨piece :: front, last, rfl, List.Subset.trans inside tail, ?_⟩
  intro p member
  rcases List.mem_cons.mp member with rfl | later
  · exact first
  · exact List.Subset.trans (within p later) tail

theorem Layout.endsClosed {rest piece : Text} {pieces : List Text}
    (layout : Layout rest piece pieces) : EndsClosed rest (piece :: pieces) := by
  induction layout with
  | closed rest => exact ⟨[], rest, rfl, List.Subset.refl _, by simp⟩
  | beforeClosing rest => exact ⟨[rest], [], rfl, List.nil_subset _, by simp⟩
  | atSpace piece layout ih => exact ih.cons (by simp) (by simp)
  | behindPoint piece layout ih => exact ih.cons (by simp) (by simp)
  | beforePoint piece layout ih => exact ih.cons (by simp) (by simp)

namespace Wrapped

theorem Continues.of_trim {line piece : Text} (same : line.trim = piece.trim)
    (content : line.trim ≠ []) (opens : '(' ∉ piece) (closes : ')' ∉ piece) : Continues line := by
  have moved : ∀ {c : Char}, isBlank c = false → c ∈ line → c ∈ piece := by
    intro c solid member
    rw [← mem_trim_iff solid, same, mem_trim_iff solid] at member
    exact member
  refine ⟨content, Bool.eq_false_iff.mpr fun start => ?_, Bool.eq_false_iff.mpr fun ends => ?_⟩
  · exact opens (moved (by decide) (opens_of_isStart start))
  · exact closes (moved (by decide) (closes_of_isEnd ends))

theorem Closes.of_trim {line last : Text} (same : line.trim = (last ++ "):").trim)
    (opens : '(' ∉ last) : Closes line := by
  have ending : ("):" : Text) <:+ line.trim := by
    rw [same]
    exact suffix_trim_append (by decide) (by decide) (by decide) last
  refine ⟨?_, Bool.eq_false_iff.mpr fun start => ?_, ?_⟩
  · exact List.ne_nil_of_mem (ending.subset List.mem_cons_self)
  · have member := (mem_trim_iff (by decide)).mpr (opens_of_isStart start)
    rw [same, mem_trim_iff (by decide), List.mem_append] at member
    exact member.elim opens (by decide)
  · exact List.isSuffixOf_iff_suffix.mpr (ending.trans (trim_suffix_trimEnd line))

theorem continuation?_of_endsClosed {rest : Text} {pieces : List Text} (h : EndsClosed rest pieces)
    (opens : '(' ∉ rest) (closes : ')' ∉ rest) {below : Block}
    (same : below.map Text.trim = pieces.map Text.trim) (content : ∀ line ∈ below, line.trim ≠ [])
    {bound : Nat} (near : below.length ≤ bound) (behind : Block) :
    continuation? bound (below ++ behind) = some below.length := by
  obtain ⟨front, last, rfl, inside, within⟩ := h
  rw [List.map_append, List.map_eq_append_iff] at same
  obtain ⟨before, closing, rfl, early, late⟩ := same
  obtain ⟨line, rfl, trimmed⟩ := List.map_eq_singleton_iff.mp late
  have between : ∀ line ∈ before, Continues line := by
    intro line member
    have found : line.trim ∈ front.map Text.trim := early ▸ List.mem_map_of_mem member
    obtain ⟨piece, inFront, alike⟩ := List.mem_map.mp found
    exact .of_trim alike.symm (content line (by simp [member]))
      (fun inner => opens (within piece inFront inner))
      (fun inner => closes (within piece inFront inner))
  have ends : Closes line := .of_trim trimmed (fun inner => opens (inside inner))
  rw [List.length_append, List.length_singleton] at near ⊢
  rw [List.append_assoc, List.singleton_append]
  exact continuation?_of_closes between ends near

theorem exists_of_append_eq_left {c : Char} {pre rest before after : Text} (absent : c ∉ pre)
    (h : pre ++ rest = before ++ c :: after) :
    ∃ inner, before = pre ++ inner ∧ rest = inner ++ c :: after := by
  rcases List.append_eq_append_iff.mp h with ⟨inner, left, right⟩ | ⟨inner, left, right⟩
  · exact ⟨inner, left, right⟩
  · cases inner with
    | nil => exact ⟨[], by simpa using left.symm, by simpa using right.symm⟩
    | cons d inner =>
      obtain ⟨rfl, -⟩ := List.cons.inj right
      exact (absent (by simp [left])).elim

theorem exists_of_append_eq_right {c : Char} {rest post before after : Text} (absent : c ∉ post)
    (h : rest ++ post = before ++ c :: after) :
    ∃ inner, rest = before ++ c :: inner ∧ after = inner ++ post := by
  rcases List.append_eq_append_iff.mp h with ⟨inner, left, right⟩ | ⟨inner, left, right⟩
  · exact (absent (by simp [right])).elim
  · cases inner with
    | nil =>
      have same : c :: after = post := right
      exact (absent (same ▸ List.mem_cons_self)).elim
    | cons d inner =>
      obtain ⟨rfl, same⟩ := List.cons.inj right
      exact ⟨inner, left, same⟩

theorem spaced_surround {pre type post : Text} (regular : IsTypeText type) (front : ',' ∉ pre)
    (back : ',' ∉ post) (tight : pre.trimEnd = pre ∨ type.head? ≠ some ',') :
    Spaced (pre ++ (type ++ post)) := by
  intro before after same
  obtain ⟨inner, rfl, inside⟩ := exists_of_append_eq_left front same
  obtain ⟨later, rfl, rfl⟩ := exists_of_append_eq_right back inside
  obtain ⟨ends, c, rest, rfl, content⟩ := regular.around_comma rfl
  refine ⟨?_, c :: rest ++ post, by simp, margin_cons_of_content content _⟩
  by_cases empty : inner = []
  · subst empty
    rw [List.append_nil]
    exact tight.elim id (absurd rfl)
  · exact trimEnd_append_of_nonempty ends empty pre

theorem spaceCommas_typedHead {name lead type trail : Text} (isName : IsName name)
    (front : IsGap lead) (back : IsGap trail) (regular : IsTypeText type)
    (tight : lead = [] ∨ type.head? ≠ some ',') :
    spaceCommas (typedHead name lead type trail ++ [':']) = typedHead name lead type trail ++ [':'] := by
  have shape : typedHead name lead type trail ++ [':'] =
      (name ++ [' ', '('] ++ lead) ++ (type ++ (trail ++ [')', ':'])) := by simp [typedHead]
  have left : ',' ∉ name ++ [' ', '('] ++ lead := by
    have inName : ',' ∉ name := isName.not_mem (by decide) (by decide)
    have inGap : ',' ∉ lead := front.isMargin.not_mem (by decide)
    simp [inName, inGap]
  have right : ',' ∉ trail ++ [')', ':'] := by
    have inGap : ',' ∉ trail := back.isMargin.not_mem (by decide)
    simp [inGap]
  have opening : (name ++ [' ', '(']).trimEnd = name ++ [' ', '('] :=
    trimEnd_append_of_nonempty (by decide) (by decide) name
  have spaced : Spaced (typedHead name lead type trail ++ [':']) := by
    rw [shape]
    refine spaced_surround regular left right ?_
    rcases tight with rfl | other
    · rw [List.append_nil]
      exact Or.inl opening
    · exact Or.inr other
  refine spaceCommas_eq_self (trim_eq_self ?_ (trimEnd_append_of_content (by decide) _)) spaced
  rw [typedHead, List.append_assoc]
  exact isName.margin_append _

theorem exists_spaceCommas_header {name lead type trail : Text} (isName : IsName name)
    (front : IsGap lead) (back : IsGap trail) (regular : IsTypeText type) :
    ∃ gap, IsGap gap ∧ spaceCommas (name ++ " (" ++ lead ++ type ++ trail ++ "):") =
      typedHead name gap type trail ++ [':'] := by
  have shape : ∀ gap : Text, name ++ " (" ++ gap ++ type ++ trail ++ "):" =
      typedHead name gap type trail ++ [':'] := fun gap => by simp [typedHead]
  by_cases comma : type.head? = some ','
  · refine ⟨[], Or.inl rfl, ?_⟩
    rw [← spaceCommas_typedHead isName (Or.inl rfl) back regular (Or.inl rfl), ← shape]
    obtain ⟨rest, rfl⟩ := List.head?_eq_some_iff.mp comma
    rcases front with rfl | rfl
    · rfl
    · have dropped := spaceCommas_space_before (name ++ " (") (rest ++ trail ++ "):")
      simpa using dropped
  · exact ⟨lead, front, by rw [shape, spaceCommas_typedHead isName front back regular (Or.inr comma)]⟩

theorem joined_cons {header : Text} {below : Block}
    (content : ∀ line ∈ header :: below, line.trim ≠ []) :
    joined (header :: below) = spaceCommas ((below.map Text.trim).foldl glue header.trim) := by
  have kept : ((header :: below).map Text.trim).filter (· ≠ []) = (header :: below).map Text.trim := by
    refine List.filter_eq_self.mpr fun text member => ?_
    obtain ⟨line, inLines, rfl⟩ := List.mem_map.mp member
    exact decide_eq_true (content line inLines)
  rw [joined, kept]
  simp [glue]

theorem margin_header {margin name : Text} (blank : margin.IsMargin) (isName : IsName name)
    (inside : Text) : (margin ++ name ++ " (" ++ inside).margin = margin := by
  rw [List.append_assoc, List.append_assoc, margin_append blank, isName.margin_append,
    List.append_nil]

theorem trimEnd_header {margin name : Text} (piece : Text) :
    (margin ++ name ++ " (" ++ piece).trimEnd = margin ++ name ++ " (" ++ piece.trimEnd :=
  trimEnd_append_left (trimEnd_append_of_nonempty (by decide) (by decide) _) piece

theorem trim_header {margin name inside : Text} (blank : margin.IsMargin) (isName : IsName name)
    (ends : inside.trimEnd = inside) :
    (margin ++ name ++ " (" ++ inside).trim = name ++ " (" ++ inside := by
  have starts : trimStart (margin ++ name ++ " (" ++ inside) = name ++ " (" ++ inside := by
    rw [List.append_assoc, List.append_assoc, trimStart_append blank,
      trimStart_eq_self (isName.margin_append _), List.append_assoc]
  have opening : (name ++ " (").trimEnd = name ++ " (" :=
    trimEnd_append_of_nonempty (by decide) (by decide) name
  rw [Text.trim, starts, trimEnd_append_left opening, ends]

theorem join_of_fragments {margin name type inside : Text} {pieces : List Text} {below : Block}
    {bound : Nat} (blank : margin.IsMargin) (isName : IsName name) (regular : IsTypeText type)
    (within : inside ⊆ type) (closed : EndsClosed type pieces)
    (same : below.map Text.trim = pieces.map Text.trim) (content : ∀ line ∈ below, line.trim ≠ [])
    (near : below.length ≤ bound) (ends : inside.trimEnd = inside)
    (glued : ∃ lead trail, IsGap lead ∧ IsGap trail ∧
      spaceCommas ((pieces.map Text.trim).foldl glue (name ++ " (" ++ inside)) =
        spaceCommas (name ++ " (" ++ lead ++ type ++ trail ++ "):")) (behind : Block) :
    ∃ lead trail, IsGap lead ∧ IsGap trail ∧
      join bound ((margin ++ name ++ " (" ++ inside) :: (below ++ behind)) =
        (margin ++ typedHead name lead type trail ++ [':']) :: behind := by
  have start : isStart (margin ++ name ++ " (" ++ inside) = true := by
    rw [isStart_header blank isName, List.all_eq_true]
    intro c member
    have plain := regular.plain c (within member)
    simp [plain]
  have reach : continuation? bound (below ++ behind) = some below.length :=
    continuation?_of_endsClosed closed (fun member => (regular.plain _ member).1 rfl)
      (fun member => (regular.plain _ member).2.1 rfl) same content near behind
  have trimmed := trim_header blank isName ends
  have lines : ∀ line ∈ (margin ++ name ++ " (" ++ inside) :: below, line.trim ≠ [] := by
    intro line member
    rcases List.mem_cons.mp member with rfl | later
    · rw [trimmed]
      simp
    · exact content line later
  obtain ⟨lead, trail, isLead, isTrail, fragments⟩ := glued
  obtain ⟨gap, isGap, header⟩ := exists_spaceCommas_header isName isLead isTrail regular
  refine ⟨gap, trail, isGap, isTrail, ?_⟩
  have whole : joined ((margin ++ name ++ " (" ++ inside) :: below) =
      typedHead name gap type trail ++ [':'] := by
    rw [joined_cons lines, same, trimmed, fragments, header]
  simp only [join, start, reach, ↓reduceIte, margin_header blank isName inside, List.take_left,
    List.drop_left, whole]
  rw [List.append_assoc]

end Wrapped

theorem EndsClosed.tail {rest piece next : Text} {pieces : List Text}
    (h : EndsClosed rest (piece :: next :: pieces)) :
    piece ⊆ rest ∧ EndsClosed rest (next :: pieces) := by
  obtain ⟨front, last, same, inside, within⟩ := h
  cases front with
  | nil => simp at same
  | cons first front =>
    obtain ⟨rfl, tail⟩ := List.cons.inj same
    exact ⟨within _ List.mem_cons_self, front, last, tail, inside,
      fun p member => within p (List.mem_cons_of_mem _ member)⟩

theorem Layout.of_nil {rest : Text} {below : List Text} (layout : Layout rest [] below)
    (nonempty : rest ≠ []) (starts : rest.margin = []) :
    ∃ next later, below = next :: later ∧ Layout rest next later := by
  generalize empty : ([] : Text) = piece at layout
  cases layout with
  | closed => simp at empty
  | beforeClosing => exact absurd empty.symm nonempty
  | atSpace =>
    subst empty
    exact absurd (isBlank_head_of_margin starts) (by decide)
  | behindPoint => simp at empty
  | beforePoint piece inner =>
    subst empty
    exact ⟨_, _, rfl, inner⟩

theorem trim_ne_nil_of_map_eq {below : Block} {pieces : List Text}
    (same : below.map Text.trim = pieces.map Text.trim) (content : ∀ line ∈ below, line.trim ≠ []) :
    ∀ p ∈ pieces, p.trim ≠ [] := by
  intro p member
  have found : p.trim ∈ below.map Text.trim := same ▸ List.mem_map_of_mem member
  obtain ⟨line, inBelow, alike⟩ := List.mem_map.mp found
  exact alike ▸ content line inBelow

section Joined

variable {margin name type : Text} (blank : margin.IsMargin) (isName : IsName name)
  (regular : IsTypeText type) {below : Block} (content : ∀ line ∈ below, line.trim ≠ [])
  {bound : Nat} (near : below.length ≤ bound)

include blank isName regular content near

theorem Wrapped.join_behindOpening {piece : Text} {pieces : List Text}
    (layout : Layout type piece pieces) (same : below.map Text.trim = (piece :: pieces).map Text.trim)
    (behind : Block) :
    ∃ lead trail, IsGap lead ∧ IsGap trail ∧
      join bound ((margin ++ name ++ " (") :: (below ++ behind)) =
        (margin ++ typedHead name lead type trail ++ [':']) :: behind := by
  have solid := trim_ne_nil_of_map_eq same content
  obtain ⟨trail, isTrail, fold⟩ := layout.gluesTo regular (List.nil_append type).symm
    regular.margin_eq_nil solid
  obtain ⟨lead, isLead, first⟩ := exists_glue (name ++ " (") piece.trim
  have glued := fold (name ++ " (" ++ lead)
  rw [← first, ← List.foldl_cons (f := glue), ← List.map_cons (f := Text.trim)] at glued
  have joined := join_of_fragments blank isName regular (List.nil_subset type) layout.endsClosed same
    content near rfl ⟨lead, trail, isLead, isTrail, by rw [List.append_nil]; exact glued⟩ behind
  rwa [List.append_nil] at joined

theorem Wrapped.join_insideType {piece : Text} {pieces : List Text}
    (layout : Layout type piece pieces) (more : below ≠ [])
    (same : below.map Text.trim = pieces.map Text.trim) (behind : Block) :
    ∃ lead trail, IsGap lead ∧ IsGap trail ∧
      join bound ((margin ++ name ++ " (" ++ piece.trimEnd) :: (below ++ behind)) =
        (margin ++ typedHead name lead type trail ++ [':']) :: behind := by
  cases pieces with
  | nil => exact absurd (List.map_eq_nil_iff.mp same) more
  | cons next pieces =>
    have starts := layout.margin_piece regular.margin_eq_nil
    have trimmed : piece.trim = piece.trimEnd := by rw [trim, trimStart_eq_self starts]
    by_cases empty : piece = []
    · subst empty
      obtain ⟨next', later, split, inner⟩ := layout.of_nil regular.nonempty regular.margin_eq_nil
      rw [split] at same
      have joined := join_behindOpening blank isName regular content near inner same behind
      rwa [← List.append_nil (margin ++ name ++ _)] at joined
    · have whole : ∀ p ∈ piece :: next :: pieces, p.trim ≠ [] := by
        intro p member
        rcases List.mem_cons.mp member with rfl | later
        · exact trim_ne_nil starts empty
        · exact trim_ne_nil_of_map_eq same content p later
      obtain ⟨within, closed⟩ := layout.endsClosed.tail
      obtain ⟨trail, isTrail, fold⟩ := layout.gluesTo regular (List.nil_append type).symm
        regular.margin_eq_nil whole
      have glued := fold (name ++ " (")
      rw [trimmed] at glued
      have inside : piece.trimEnd ⊆ type := fun c member => within (mem_of_mem_trimEnd member)
      exact join_of_fragments blank isName regular inside closed same content near
        (trimEnd_trimEnd piece)
        ⟨[], trail, Or.inl rfl, isTrail, by rw [glued, List.append_nil]⟩ behind

end Joined

theorem map_trim_map_trimEnd (lines : Block) :
    (lines.map Text.trimEnd).map Text.trim = lines.map Text.trim := by
  rw [List.map_map]
  exact List.map_congr_left fun line _ => trim_trimEnd line

theorem Wraps.join {margin name type : Text} {lines : Block} (wraps : Wraps margin name type lines)
    (blank : margin.IsMargin) (isName : IsName name) (regular : IsTypeText type)
    (content : ∀ line ∈ lines, line.trim ≠ []) (two : 2 ≤ lines.length) {bound : Nat}
    (near : lines.length ≤ bound + 1) (behind : Block) :
    ∃ lead trail, Wrapped.IsGap lead ∧ Wrapped.IsGap trail ∧
      Wrapped.join bound ((lines ++ behind).map Text.trimEnd) =
        (margin ++ typedHead name lead type trail ++ [':']) :: behind.map Text.trimEnd := by
  have solid : ∀ line ∈ lines.map Text.trimEnd, line.trim ≠ [] :=
    trim_ne_nil_of_map_eq (map_trim_map_trimEnd lines).symm content
  cases wraps with
  | @insideType piece pieces below layout same =>
    have more : below.map Text.trimEnd ≠ [] := by
      rintro empty
      rw [List.map_eq_nil_iff.mp empty] at two
      exact absurd two (by simp)
    have fits : (below.map Text.trimEnd).length ≤ bound := by simpa using near
    have joined := Wrapped.join_insideType blank isName regular
      (fun line member => solid line (List.mem_cons_of_mem _ member)) fits layout more
      ((map_trim_map_trimEnd below).trans same) (behind.map Text.trimEnd)
    rwa [← Wrapped.trimEnd_header piece, ← List.map_append, ← List.map_cons (f := Text.trimEnd)] at joined
  | @behindOpening piece pieces below layout same =>
    have fits : (below.map Text.trimEnd).length ≤ bound := by simpa using near
    have joined := Wrapped.join_behindOpening blank isName regular
      (fun line member => solid line (List.mem_cons_of_mem _ member)) fits layout
      ((map_trim_map_trimEnd below).trans same) (behind.map Text.trimEnd)
    have opening : (margin ++ name ++ " (").trimEnd = margin ++ name ++ " (" :=
      trimEnd_append_of_nonempty (by decide) (by decide) _
    rwa [← opening, ← List.map_append, ← List.map_cons (f := Text.trimEnd)] at joined

end DocMarkup
