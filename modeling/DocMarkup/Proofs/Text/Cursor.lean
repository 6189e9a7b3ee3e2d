import DocMarkup.LineCursor

namespace DocMarkup

inductive CursorCall where
  | peek (n : Nat)
  | get (offset : Nat)
  | next
  | consume (n : Nat)
  | pushFront (line : Text)
  | remaining
  | isEmpty

inductive CursorAnswer where
  | lines (lines : List Text)
  | line (line : Option Text)
  | done
  | refused (e : PastEnd)
  | count (n : Nat)
  | flag (value : Bool)

namespace CursorCall

def onList (lines : List Text) : CursorCall → CursorAnswer × List Text
  | peek n => (.lines (lines.take n), lines)
  | get offset => (.line lines[offset]?, lines)
  | next => (.line lines.head?, lines.tail)
  | consume n =>
    if n ≤ lines.length then (.done, lines.drop n) else (.refused ⟨n, lines.length⟩, lines)
  | pushFront line => (.done, line :: lines)
  | remaining => (.count lines.length, lines)
  | isEmpty => (.flag lines.isEmpty, lines)

def onCursor (cursor : LineCursor) : CursorCall → CursorAnswer × LineCursor
  | peek n => (.lines (cursor.peek n), cursor)
  | get offset => (.line (cursor.get? offset), cursor)
  | next =>
    match cursor.next? with
    | some (line, rest) => (.line (some line), rest)
    | none => (.line none, cursor)
  | consume n =>
    match cursor.consume n with
    | (.ok (), rest) => (.done, rest)
    | (.error e, rest) => (.refused e, rest)
  | pushFront line => (.done, cursor.pushFront line)
  | remaining => (.count cursor.remaining, cursor)
  | isEmpty => (.flag cursor.isEmpty, cursor)

def runOn {State : Type} (answer : State → CursorCall → CursorAnswer × State) (state : State) :
    List CursorCall → List CursorAnswer × State
  | [] => ([], state)
  | call :: calls =>
    let (first, state) := answer state call
    let (others, state) := runOn answer state calls
    (first :: others, state)

end CursorCall

namespace LineCursor

open CursorCall

/-- The cursor with other slots behind its position, as many as there are lines in `passed`. -/
def withPassed (cursor : LineCursor) (passed : List Text) : LineCursor :=
  ⟨(passed ++ cursor.toList).toArray, passed.length, by simp⟩

theorem toList_withPassed (cursor : LineCursor) (passed : List Text) :
    (cursor.withPassed passed).toList = cursor.toList := by
  show List.drop passed.length (passed ++ cursor.toList) = cursor.toList
  exact List.drop_left

theorem extract_cut_off (cursor : LineCursor) (n spare : Nat) :
    (cursor.slots.extract cursor.position
      (min (cursor.position + n) (cursor.slots.size + spare))).toList = cursor.peek n := by
  have le := cursor.position_le
  by_cases short : cursor.position + n ≤ cursor.slots.size + spare
  · rw [Nat.min_eq_left short, peek]
  · have all : cursor.toList.take n = cursor.toList := by
      apply List.take_of_length_le
      rw [length_toList, remaining]
      omega
    rw [Nat.min_eq_right (by omega), peek_eq, all, Array.toList_extract, List.extract_eq_take_drop]
    apply List.take_of_length_le
    rw [List.length_drop, Array.length_toList]
    omega

theorem onCursor_toList (cursor : LineCursor) (call : CursorCall) :
    (onCursor cursor call).1 = (onList cursor.toList call).1 ∧
      (onCursor cursor call).2.toList = (onList cursor.toList call).2 := by
  cases call with
  | peek n => exact ⟨congrArg CursorAnswer.lines (peek_eq cursor n), rfl⟩
  | get offset => exact ⟨congrArg CursorAnswer.line (get?_eq cursor offset), rfl⟩
  | next =>
    cases found : cursor.next? with
    | none =>
      have nothing := next?_eq_none_iff.mp found
      simp only [onCursor, onList, found, nothing]
      exact ⟨rfl, rfl⟩
    | some parts =>
      obtain ⟨line, rest⟩ := parts
      simp only [onCursor, onList, found, toList_next? found]
      exact ⟨rfl, rfl⟩
  | consume n =>
    by_cases fits : n ≤ cursor.toList.length
    · obtain ⟨rest, made, left⟩ := consume_of_le fits
      simp only [onCursor, onList, made, if_pos fits, true_and]
      exact left
    · simp only [onCursor, onList, consume_of_lt (Nat.lt_of_not_le fits), if_neg fits, and_self]
  | pushFront line => exact ⟨rfl, toList_pushFront cursor line⟩
  | remaining => exact ⟨congrArg CursorAnswer.count (length_toList cursor).symm, rfl⟩
  | isEmpty => exact ⟨congrArg CursorAnswer.flag (isEmpty_eq cursor), rfl⟩

theorem runOn_toList (cursor : LineCursor) (calls : List CursorCall) :
    (runOn onCursor cursor calls).1 = (runOn onList cursor.toList calls).1 ∧
      (runOn onCursor cursor calls).2.toList = (runOn onList cursor.toList calls).2 := by
  induction calls generalizing cursor with
  | nil => exact ⟨rfl, rfl⟩
  | cons call calls ih =>
    obtain ⟨answers, left⟩ := onCursor_toList cursor call
    have others := ih (onCursor cursor call).2
    rw [left] at others
    simp only [runOn, answers, others.1, others.2, and_self]

/-- A cursor answers all calls as the list of its lines without the blanks at their ends does. The
sum of its position and a number of lines may be cut off anywhere beyond its slots, a call for more
lines than there are leaves it as it is, slot by slot, and the slots that it has passed have no part
in what it answers from then on. -/
theorem runOn_ofLines (lines : List Text) (calls : List CursorCall) :
    let run := runOn onCursor (ofLines lines) calls
    let plain := runOn onList (lines.map Text.trimEnd) calls
    run.1 = plain.1 ∧ run.2.toList = plain.2 ∧
      (∀ n spare, (run.2.slots.extract run.2.position
        (min (run.2.position + n) (run.2.slots.size + spare))).toList = plain.2.take n) ∧
      (∀ n, plain.2.length < n →
        run.2.consume n = (.error ⟨n, plain.2.length⟩, run.2)) ∧
      ∀ passed more,
        (runOn onCursor (run.2.withPassed passed) more).1 = (runOn onCursor run.2 more).1 := by
  intro run plain
  have follows := runOn_toList (ofLines lines) calls
  rw [toList_ofLines] at follows
  obtain ⟨answers, left⟩ := follows
  refine ⟨answers, left, ?_, ?_, ?_⟩
  · intro n spare
    rw [extract_cut_off, peek_eq, left]
  · intro n short
    rw [← left] at short ⊢
    exact consume_of_lt short
  · intro passed more
    rw [(runOn_toList (run.2.withPassed passed) more).1, toList_withPassed,
      (runOn_toList run.2 more).1]

example : (runOn onCursor (ofLines ["a (", "  int): ", "b"])
    [.consume 2, .pushFront "a (int):", .peek 3, .consume 3]).1 =
      [.done, .done, .lines ["a (int):", "b"], .refused ⟨3, 2⟩] := by rfl

end LineCursor

end DocMarkup
