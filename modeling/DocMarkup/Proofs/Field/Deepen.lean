import DocMarkup.Field.Basic
import DocMarkup.Proofs.Field.Fragment
import DocMarkup.Proofs.Field.LookAhead
import DocMarkup.Proofs.Field.PlainText
import DocMarkup.Proofs.Text.Deepen

namespace DocMarkup

open Text

theorem Text.splitColon?_deepen (n : Nat) (line : Text) :
    splitColon? (line.deepen n) = splitColon? line := by
  unfold deepen
  split
  · rfl
  · induction n with
    | zero => rfl
    | succ n ih =>
      rw [spaces, List.replicate_succ, List.cons_append, splitColon?_blank (by decide)]
      exact ih

def Entry.deepen (n : Nat) (entry : Entry) : Entry := ⟨entry.header.deepen n, entry.block.deepen n⟩

namespace Field

theorem headAndText_deepen (n : Nat) (header : Text) :
    headAndText (header.deepen n) = headAndText header := by
  rw [headAndText, splitColon?_deepen, trim_deepen, headAndText]

theorem ofEntry_deepen (typeMarkup : TypeMarkup) (describe : Block → Block) (style : EntryStyle)
    {entry : Entry} (solid : ∀ line ∈ entry.block, line.Solid) (n : Nat) :
    ofEntry typeMarkup describe style (entry.deepen n) =
      ofEntry typeMarkup describe style entry := by
  simp only [ofEntry, Entry.deepen, headAndText_deepen, Block.dedent_deepen solid]

theorem ofEntries_deepen (typeMarkup : TypeMarkup) (describe : Block → Block) (style : EntryStyle)
    {entries : List Entry} (solid : ∀ entry ∈ entries, ∀ line ∈ entry.block, line.Solid) (n : Nat) :
    ofEntries typeMarkup describe style (entries.map (Entry.deepen n)) =
      ofEntries typeMarkup describe style entries := by
  rw [ofEntries, List.flatMap_map, ofEntries, List.flatMap_def, List.flatMap_def]
  refine congrArg List.flatten (List.map_congr_left fun entry member => ?_)
  rw [ofEntry_deepen typeMarkup describe style (solid entry member)]

end Field

namespace Wrapped

theorem isStart_deepen (n : Nat) (line : Text) : isStart (line.deepen n) = isStart line := by
  simp only [isStart, trimStart_deepen]

theorem isEnd_iff_trim {line : Text} : isEnd line = true ↔ ("):" : Text) <:+ line.trim := by
  rw [isEnd, endsWith, List.isSuffixOf_iff_suffix]
  constructor
  · rintro ⟨front, same⟩
    rw [← trim_trimEnd, ← same]
    exact suffix_trim_append (by decide) (by decide) (by decide) front
  · exact fun ends => ends.trans (trim_suffix_trimEnd line)

theorem isEnd_deepen (n : Nat) (line : Text) : isEnd (line.deepen n) = isEnd line := by
  rw [Bool.eq_iff_iff, isEnd_iff_trim, isEnd_iff_trim, trim_deepen]

theorem continuation?_deepen (n bound : Nat) (lines : Block) :
    continuation? bound (lines.deepen n) = continuation? bound lines := by
  induction bound generalizing lines with
  | zero => rfl
  | succ bound ih =>
    cases lines with
    | nil => rfl
    | cons line lines =>
      have behind := ih lines
      rw [Block.deepen] at behind ⊢
      rw [List.map_cons, continuation?_cons, trim_deepen, isStart_deepen, isEnd_deepen, behind,
        continuation?_cons]

theorem joined_deepen (n : Nat) (lines : Block) : joined (lines.deepen n) = joined lines := by
  have same : (lines.deepen n).map Text.trim = lines.map Text.trim := by
    rw [Block.deepen, List.map_map]
    exact List.map_congr_left fun line _ => trim_deepen n line
  rw [joined, same, joined]

theorem mem_spaceCommas {c : Char} (content : isBlank c = false) {text : Text} (h : c ∈ text) :
    c ∈ spaceCommas text := by
  induction text using comma_induction with
  | whole text absent =>
    rw [spaceCommas_of_not_mem absent, mem_trim_iff content]
    exact h
  | cut before after first ih =>
    rw [spaceCommas_comma, spaceCommas_of_not_mem first, List.mem_append, List.mem_append,
      mem_trim_iff content]
    rcases List.mem_append.mp h with inside | behind
    · exact Or.inl (Or.inl inside)
    · rcases List.mem_cons.mp behind with rfl | behind
      · exact Or.inl (Or.inr (by decide))
      · exact Or.inr (ih behind)

theorem mem_foldl_glue {c : Char} {text : Text} (h : c ∈ text) (fragments : List Text) :
    c ∈ fragments.foldl glue text := by
  induction fragments generalizing text with
  | nil => exact h
  | cons fragment fragments ih =>
    obtain ⟨gap, -, glued⟩ := exists_glue text fragment
    rw [List.foldl_cons]
    exact ih (by simp [glued, h])

theorem mem_joined {c : Char} (content : isBlank c = false) {line : Text} (h : c ∈ line)
    (rest : Block) : c ∈ joined (line :: rest) := by
  have member : c ∈ line.trim := (mem_trim_iff content).mpr h
  have kept : ((line :: rest).map Text.trim).filter (· ≠ []) =
      line.trim :: (rest.map Text.trim).filter (· ≠ []) :=
    List.filter_cons_of_pos (decide_eq_true (List.ne_nil_of_mem member))
  rw [joined, kept, List.foldl_cons]
  exact mem_spaceCommas content (mem_foldl_glue (by simp [glue, member]) _)

theorem join_deepen (n bound : Nat) (lines : Block) :
    join bound (lines.deepen n) = Block.deepen n (join bound lines) := by
  cases lines with
  | nil => rfl
  | cons line rest =>
    simp only [Block.deepen_cons, join, isStart_deepen, continuation?_deepen]
    split
    · rename_i start
      split
      · rename_i count found
        have opens : '(' ∈ line := opens_of_isStart start
        have content : line.trim ≠ [] := List.ne_nil_of_mem ((mem_trim_iff (by decide)).mpr opens)
        have whole : (line.margin ++ joined (line :: rest.take count)).trim ≠ [] := by
          have kept := mem_joined (by decide) opens (rest.take count)
          exact List.ne_nil_of_mem ((mem_trim_iff (by decide)).mpr (List.mem_append_right _ kept))
        rw [Block.deepen_cons, Block.take_deepen, Block.drop_deepen, ← Block.deepen_cons,
          joined_deepen, deepen_of_content whole, deepen_of_content content,
          margin_append (isMargin_spaces n), List.append_assoc]
      · rfl
    · rfl

end Wrapped

end DocMarkup
