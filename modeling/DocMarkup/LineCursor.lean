import DocMarkup.Text.Basic

namespace DocMarkup

structure LineCursor where
  slots : Array Text
  position : Nat
  position_le : position ≤ slots.size

structure PastEnd where
  asked : Nat
  remaining : Nat

def PastEnd.message (e : PastEnd) : String :=
  s!"consume({e.asked}) past end of input ({e.remaining} remaining)"

namespace LineCursor

def ofLines (lines : List Text) : LineCursor :=
  ⟨(lines.map Text.trimEnd).toArray, 0, Nat.zero_le _⟩

def toList (cursor : LineCursor) : List Text := cursor.slots.toList.drop cursor.position

def remaining (cursor : LineCursor) : Nat := cursor.slots.size - cursor.position

def isEmpty (cursor : LineCursor) : Bool := cursor.remaining == 0

def peek (cursor : LineCursor) (n : Nat) : List Text :=
  (cursor.slots.extract cursor.position (cursor.position + n)).toList

def get? (cursor : LineCursor) (offset : Nat) : Option Text :=
  cursor.slots[cursor.position + offset]?

theorem succ_le_size_set {slots : Array Text} {position : Nat} (h : position < slots.size) :
    position + 1 ≤ (slots.set position []).size := by
  rw [Array.size_set]
  exact h

def next? (cursor : LineCursor) : Option (Text × LineCursor) :=
  if h : cursor.position < cursor.slots.size then
    some (cursor.slots[cursor.position],
      ⟨cursor.slots.set cursor.position [], cursor.position + 1, succ_le_size_set h⟩)
  else
    none

def consume (cursor : LineCursor) (n : Nat) : Except PastEnd Unit × LineCursor :=
  if h : cursor.position + n ≤ cursor.slots.size then
    (.ok (), ⟨cursor.slots, cursor.position + n, h⟩)
  else
    (.error ⟨n, cursor.remaining⟩, cursor)

def pushFront (cursor : LineCursor) (line : Text) : LineCursor :=
  if h : 0 < cursor.position then
    ⟨cursor.slots.set (cursor.position - 1) line (by have := cursor.position_le; omega),
      cursor.position - 1, by have := cursor.position_le; simp; omega⟩
  else
    ⟨#[line] ++ cursor.slots, 0, Nat.zero_le _⟩

theorem toList_ofLines (lines : List Text) :
    (ofLines lines).toList = lines.map Text.trimEnd := by
  simp [ofLines, toList]

theorem length_toList (cursor : LineCursor) : cursor.toList.length = cursor.remaining := by
  simp [toList, remaining]

theorem peek_eq (cursor : LineCursor) (n : Nat) : cursor.peek n = cursor.toList.take n := by
  simp [peek, toList, List.extract_eq_take_drop]

theorem get?_eq (cursor : LineCursor) (offset : Nat) :
    cursor.get? offset = cursor.toList[offset]? := by
  simp [get?, toList]

theorem isEmpty_eq (cursor : LineCursor) : cursor.isEmpty = cursor.toList.isEmpty := by
  rw [Bool.eq_iff_iff, isEmpty, List.isEmpty_iff_length_eq_zero, length_toList, beq_iff_eq]

theorem consume_of_le {cursor : LineCursor} {n : Nat} (fits : n ≤ cursor.toList.length) :
    ∃ rest, cursor.consume n = (.ok (), rest) ∧ rest.toList = cursor.toList.drop n := by
  have inside : cursor.position + n ≤ cursor.slots.size := by
    have := cursor.position_le
    rw [length_toList, remaining] at fits
    omega
  rw [consume, dif_pos inside]
  exact ⟨_, rfl, by simp [toList]⟩

theorem consume_of_lt {cursor : LineCursor} {n : Nat} (short : cursor.toList.length < n) :
    cursor.consume n = (.error ⟨n, cursor.toList.length⟩, cursor) := by
  rw [length_toList] at short ⊢
  have outside : ¬ cursor.position + n ≤ cursor.slots.size := by
    rw [remaining] at short
    omega
  rw [consume, dif_neg outside]

theorem next?_eq_none_iff {cursor : LineCursor} :
    cursor.next? = none ↔ cursor.toList = [] := by
  simp only [next?, toList, List.drop_eq_nil_iff, Array.length_toList]
  split <;> simp <;> omega

theorem toList_next? {cursor rest : LineCursor} {line : Text}
    (h : cursor.next? = some (line, rest)) : cursor.toList = line :: rest.toList := by
  simp only [next?] at h
  split at h
  · rename_i lt
    cases h
    simp only [toList, Array.toList_set, List.drop_set_of_lt (Nat.lt_succ_self _)]
    rw [List.drop_eq_getElem_cons (by simpa using lt)]
    simp
  · contradiction

theorem toList_pushFront (cursor : LineCursor) (line : Text) :
    (cursor.pushFront line).toList = line :: cursor.toList := by
  have le := cursor.position_le
  simp only [pushFront]
  split
  · rename_i pos
    simp only [toList, Array.toList_set]
    rw [List.drop_eq_getElem_cons (by simp; omega)]
    simp only [List.getElem_set_self]
    rw [Nat.sub_add_cancel pos, List.drop_set_of_lt (by omega)]
  · have : cursor.position = 0 := by omega
    simp [toList, this]

end LineCursor

end DocMarkup
