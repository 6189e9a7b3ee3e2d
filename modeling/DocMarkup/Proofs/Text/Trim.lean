import Mathlib.Data.List.Basic
import DocMarkup.Proofs.Text.Margin

namespace DocMarkup.Text

theorem trimStart_eq_self {text : Text} (h : text.margin = []) : text.trimStart = text := by
  have parts : text.margin ++ text.trimStart = text := List.takeWhile_append_dropWhile
  rwa [h, List.nil_append] at parts

theorem trimStart_append_cons {c : Char} (content : isBlank c = false) (before rest : Text) :
    trimStart (before ++ c :: rest) = before.trimStart ++ c :: rest := by
  unfold trimStart
  rw [List.dropWhile_append]
  split
  · rename_i empty
    rw [List.isEmpty_iff.mp empty, List.dropWhile_cons_of_neg (by simp [content])]
    rfl
  · rfl

theorem margin_cons_of_content {c : Char} (content : isBlank c = false) (text : Text) :
    margin (c :: text) = [] := by
  simp [margin, content]

theorem isBlank_head_of_margin {c : Char} {text : Text} (h : margin (c :: text) = []) :
    isBlank c = false := by
  simpa [margin, List.takeWhile_cons] using h

theorem margin_append_of_nonempty {start : Text} (h : start.margin = []) (nonempty : start ≠ [])
    (rest : Text) : (start ++ rest).margin = [] := by
  cases start with
  | nil => exact absurd rfl nonempty
  | cons c start => exact margin_cons_of_content (isBlank_head_of_margin h) _

theorem trimEnd_append_of_content {c : Char} (content : isBlank c = false) (text : Text) :
    (text ++ [c]).trimEnd = text ++ [c] := by
  simp [trimEnd, content]

theorem trimEnd_append_of_blank {c : Char} (blank : isBlank c = true) (text : Text) :
    (text ++ [c]).trimEnd = text.trimEnd := by
  simp [trimEnd, blank]

theorem trimEnd_eq_self_iff {text : Text} :
    text.trimEnd = text ↔ ∀ c, text.getLast? = some c → isBlank c = false := by
  rcases List.eq_nil_or_concat' text with rfl | ⟨start, c, rfl⟩
  · simp [trimEnd]
  · by_cases blank : isBlank c = true
    · have shorter : (trimEnd start).length ≤ start.length := by
        obtain ⟨blanks, eq, -⟩ := exists_trimEnd_append start
        rw [← congrArg List.length eq, List.length_append]
        exact Nat.le_add_right _ _
      have differ : trimEnd start ≠ start ++ [c] := by
        intro same
        rw [same, List.length_append] at shorter
        exact absurd shorter (by simp)
      simp [trimEnd_append_of_blank blank, differ, blank]
    · simp [trimEnd_append_of_content, blank]

theorem trimEnd_of_append_right (start : Text) {rest : Text}
    (h : (start ++ rest).trimEnd = start ++ rest) : rest.trimEnd = rest := by
  rw [trimEnd_eq_self_iff] at h ⊢
  intro c last
  exact h c (by rw [List.getLast?_append, last, Option.some_or])

theorem trim_append_of_content {text : Text} (trimmed : text.trimEnd = text) {c : Char}
    (content : isBlank c = false) : (text ++ [c]).trim = text.trim ++ [c] := by
  have ends := trimEnd_of_append_right text.margin (by rwa [margin_append_trimStart])
  rw [trim, trim, ends, trimStart_append_cons content, trimEnd_append_of_content content]

theorem trimEnd_append_of_nonempty {rest : Text} (h : rest.trimEnd = rest) (nonempty : rest ≠ [])
    (start : Text) : (start ++ rest).trimEnd = start ++ rest := by
  rw [trimEnd_eq_self_iff] at h ⊢
  intro c last
  rw [List.getLast?_append, List.getLast?_eq_some_getLast nonempty, Option.some_or] at last
  exact h c (by rw [List.getLast?_eq_some_getLast nonempty, last])

theorem trimEnd_trimEnd (text : Text) : text.trimEnd.trimEnd = text.trimEnd := by
  rw [trimEnd_eq_self_iff]
  intro c last
  rw [trimEnd, List.getLast?_reverse] at last
  cases kept : text.reverse.dropWhile isBlank with
  | nil => rw [kept] at last; cases last
  | cons d rest =>
    have content := List.head_dropWhile_not isBlank (l := text.reverse) (by simp [kept])
    simp only [kept, List.head_cons, List.head?_cons, Option.some.injEq] at content last
    exact last ▸ content

theorem trim_eq_self {text : Text} (start : text.margin = []) (ends : text.trimEnd = text) :
    text.trim = text := by
  rw [trim, trimStart_eq_self start, ends]

theorem margin_of_trim_eq {text : Text} (h : text.trim = text) : text.margin = [] := by
  rw [← h]
  exact margin_trim text

theorem trimEnd_of_trim_eq {text : Text} (h : text.trim = text) : text.trimEnd = text := by
  rw [← h, trim, trimEnd_trimEnd]

section Appended

variable {blanks : Text} (blank : blanks.IsMargin)

include blank

theorem trimEnd_append (text : Text) : (text ++ blanks).trimEnd = text.trimEnd := by
  have reversed : ∀ c ∈ blanks.reverse, isBlank c = true :=
    fun c member => blank c (List.mem_reverse.mp member)
  rw [trimEnd, List.reverse_append, List.dropWhile_append_of_pos reversed, trimEnd]

theorem trim_append_blanks (text : Text) : (text ++ blanks).trim = text.trim := by
  induction text with
  | nil =>
    have swapped := trim_append blank []
    rwa [List.append_nil] at swapped
  | cons c text ih =>
    by_cases front : isBlank c = true
    · have single : IsMargin [c] := fun d member => List.mem_singleton.mp member ▸ front
      have whole := trim_append single (text ++ blanks)
      rw [ih, ← trim_append single text] at whole
      exact whole
    · have start : ∀ rest : Text, trimStart (c :: rest) = c :: rest :=
        fun rest => trimStart_eq_self (margin_cons_of_content (by simpa using front) rest)
      rw [trim, trim, List.cons_append, start, start, ← List.cons_append, trimEnd_append blank]

end Appended

theorem mem_of_mem_trimEnd {text : Text} {c : Char} (h : c ∈ text.trimEnd) : c ∈ text := by
  obtain ⟨blanks, eq, -⟩ := exists_trimEnd_append text
  rw [← eq]
  exact List.mem_append_left _ h

theorem trimEnd_append_of_trimEnd_ne_nil {rest : Text} (h : rest.trimEnd ≠ []) (start : Text) :
    (start ++ rest).trimEnd = start ++ rest.trimEnd := by
  obtain ⟨blanks, eq, blank⟩ := exists_trimEnd_append rest
  have whole := trimEnd_append blank (start ++ rest.trimEnd)
  rw [List.append_assoc, eq] at whole
  rw [whole, trimEnd_append_of_nonempty (trimEnd_trimEnd rest) h]

theorem trimEnd_append_left {start : Text} (h : start.trimEnd = start) (rest : Text) :
    (start ++ rest).trimEnd = start ++ rest.trimEnd := by
  by_cases empty : rest.trimEnd = []
  · obtain ⟨blanks, eq, blank⟩ := exists_trimEnd_append rest
    rw [empty, List.nil_append] at eq
    rw [empty, ← eq, trimEnd_append blank, h, List.append_nil]
  · exact trimEnd_append_of_trimEnd_ne_nil empty start

theorem trim_suffix_trimEnd (text : Text) : text.trim <:+ text.trimEnd := by
  by_cases empty : text.trim = []
  · rw [empty]
    exact List.nil_suffix
  · have parts := trimEnd_append_of_trimEnd_ne_nil empty text.margin
    rw [margin_append_trimStart] at parts
    exact ⟨text.margin, parts.symm⟩

theorem suffix_trim_append {rest : Text} (starts : rest.margin = []) (ends : rest.trimEnd = rest)
    (nonempty : rest ≠ []) (start : Text) : rest <:+ (start ++ rest).trim := by
  have kept : ∃ front, trimStart (start ++ rest) = front ++ rest := by
    rw [trimStart, List.dropWhile_append]
    split
    · exact ⟨[], trimStart_eq_self starts⟩
    · exact ⟨_, rfl⟩
  obtain ⟨front, same⟩ := kept
  rw [trim, same, trimEnd_append_of_nonempty ends nonempty]
  exact List.suffix_append _ _

theorem mem_trim_iff {text : Text} {c : Char} (content : isBlank c = false) :
    c ∈ text.trim ↔ c ∈ text := by
  constructor
  · intro member
    exact mem_of_mem_trimEnd ((trim_suffix_trimEnd text).subset member)
  · intro member
    obtain ⟨blanks, eq, blank⟩ := exists_trimEnd_append text.trimStart
    rw [← margin_append_trimStart text, ← eq] at member
    rw [List.mem_append, List.mem_append] at member
    rcases member with front | inside | back
    · exact absurd front ((isMargin_margin text).not_mem content)
    · exact inside
    · exact absurd back (IsMargin.not_mem blank content)

theorem trim_ne_nil {text : Text} (starts : text.margin = []) (nonempty : text ≠ []) :
    text.trim ≠ [] := by
  obtain ⟨c, rest, rfl⟩ := List.exists_cons_of_ne_nil nonempty
  have member := (mem_trim_iff (isBlank_head_of_margin starts)).mpr (List.mem_cons_self (l := rest))
  exact List.ne_nil_of_mem member

theorem trim_trimEnd (text : Text) : text.trimEnd.trim = text.trim := by
  obtain ⟨blanks, eq, blank⟩ := exists_trimEnd_append text
  rw [← trim_append_blanks blank text.trimEnd, eq]

end DocMarkup.Text
