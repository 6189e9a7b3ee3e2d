import DocMarkup.Field.Colon
import DocMarkup.Proofs.Checked.Access

namespace DocMarkup

namespace Checked

def spansFrom (start : Nat) : List Piece → List (Nat × Nat)
  | [] => []
  | .span text :: rest =>
    (start, start + text.byteLength) :: spansFrom (start + text.byteLength) rest
  | .plain c :: rest => spansFrom (start + c.utf8Size) rest

def isSingleColon (gap : Text) (i : Nat) : Except Fault Bool := do
  if (← element gap i) != ':' then return false
  else if i = 0 then return gap[i + 1]? != some ':'
  else do
    let before ← element gap (← difference i 1)
    return before != ':' && gap[i + 1]? != some ':'

def singleColon? (gap : Text) : Except Fault (Option Nat) :=
  (List.range gap.length).findM? (isSingleColon gap)

def splitGaps (line : Text) (gapStart : Nat) :
    List (Nat × Nat) → Except Fault (Option (Text × Text))
  | [] => .ok none
  | (start, stop) :: rest => do
    let gap ← textSlice line gapStart start
    match ← singleColon? (bytes gap) with
    | some position =>
      let before ← textTo line (gapStart + position)
      let after ← textFrom line (gapStart + position + 1)
      return some (before.trim, after.trim)
    | none => splitGaps line stop rest

def splitColon? (line : Text) : Except Fault (Option (Text × Text)) :=
  splitGaps line 0 (spansFrom 0 (Markup.pieces line) ++ [(line.byteLength, line.byteLength)])

def cutColon? (afterColon : Bool) : Text → Option (Text × Text)
  | [] => none
  | c :: rest =>
    if c == ':' && !afterColon && rest.head? != some ':' then some ([], rest)
    else (cutColon? (c == ':') rest).map fun (before, after) => (c :: before, after)

theorem cutColon?_append {afterColon : Bool} {gap before after : Text}
    (cut : cutColon? afterColon gap = some (before, after)) : before ++ ':' :: after = gap := by
  induction gap generalizing afterColon before with
  | nil => cases cut
  | cons c rest ih =>
    rw [cutColon?] at cut
    split at cut
    · rename_i single
      cases cut
      simp only [Bool.and_eq_true, beq_iff_eq] at single
      rw [List.nil_append, single.1.1]
    · obtain ⟨⟨start, behind⟩, found, same⟩ := Option.map_eq_some_iff.mp cut
      cases same
      rw [List.cons_append, ih found]

def standsSingle (gap : Text) (i : Nat) : Bool :=
  gap[i]? == some ':' && (i == 0 || gap[i - 1]? != some ':') && gap[i + 1]? != some ':'

theorem isSingleColon_eq {gap : Text} {i : Nat} (inside : i < gap.length) :
    isSingleColon gap i = .ok (standsSingle gap i) := by
  have here : element gap i = .ok gap[i] := element_eq (List.getElem?_eq_getElem inside)
  rw [isSingleColon, standsSingle, here, List.getElem?_eq_getElem inside, ok_bind]
  by_cases colon : gap[i] = ':'
  · cases i with
    | zero => simp [colon]
    | succ i =>
      have before : element gap i = .ok gap[i] :=
        element_eq (List.getElem?_eq_getElem (Nat.lt_of_succ_lt inside))
      have previous : (gap[i]? != some ':') = (gap[i] != ':') := by
        rw [List.getElem?_eq_getElem (Nat.lt_of_succ_lt inside)]
        rfl
      simp [colon, difference_add, before, previous]
  · simp [colon]

theorem find?_standsSingle (front rest : Text) :
    (List.range' front.length rest.length).find? (standsSingle (front ++ rest)) =
      (cutColon? (front.getLast? == some ':') rest).map fun cut => front.length + cut.1.length := by
  induction rest generalizing front with
  | nil => rfl
  | cons c rest ih =>
    have before : (front.length == 0 || (front ++ c :: rest)[front.length - 1]? != some ':') =
        !(front.getLast? == some ':') := by
      rcases List.eq_nil_or_concat front with rfl | ⟨front, d, rfl⟩
      · rfl
      · simp
        rfl
    have next : (front ++ c :: rest)[front.length + 1]? = rest.head? := by
      rw [List.getElem?_append_right (Nat.le_succ _), List.head?_eq_getElem?]
      simp
    have here : standsSingle (front ++ c :: rest) front.length =
        (c == ':' && !(front.getLast? == some ':') && rest.head? != some ':') := by
      rw [standsSingle, before, next]
      simp
    have others := ih (front ++ [c])
    rw [List.append_assoc, List.singleton_append, List.length_append, List.length_singleton,
      List.getLast?_concat] at others
    rw [List.length_cons, List.range'_succ, List.find?_cons, here, cutColon?, others]
    split
    · rename_i single
      rw [if_pos single]
      rfl
    · rename_i other
      have same : (some c == some ':') = (c == ':') := rfl
      rw [if_neg (by simpa using other), same]
      cases cutColon? (c == ':') rest with
      | none => rfl
      | some cut =>
        simp only [Option.map_some, List.length_cons, Option.some.injEq]
        omega

theorem singleColon?_eq (gap : Text) :
    singleColon? gap = .ok ((cutColon? false gap).map (·.1.length)) := by
  have checked : ∀ i ∈ List.range gap.length, isSingleColon gap i = .ok (standsSingle gap i) :=
    fun i mem => isSingleColon_eq (List.mem_range.mp mem)
  have found := find?_standsSingle [] gap
  rw [singleColon?, findM?_eq_ok checked, List.range_eq_range']
  simpa using found

theorem cutColon?_plain_append {afterColon : Bool} {run rest : Text} (nonempty : run ≠ [])
    (plain : ':' ∉ run) : cutColon? afterColon (run ++ rest) =
      (cutColon? false rest).map fun (before, after) => (run ++ before, after) := by
  induction run generalizing afterColon with
  | nil => exact absurd rfl nonempty
  | cons c run ih =>
    simp only [List.mem_cons, not_or] at plain
    have other : (c == ':') = false := by simpa using Ne.symm plain.1
    rw [List.cons_append, cutColon?, other, if_neg (by simp)]
    cases run with
    | nil => rfl
    | cons d run =>
      rw [ih nofun plain.2, Option.map_map]
      rfl

theorem cutColon?_bytes (afterColon : Bool) (gap : Text) :
    cutColon? afterColon (bytes gap) =
      (cutColon? afterColon gap).map fun (before, after) => (bytes before, bytes after) := by
  induction gap generalizing afterColon with
  | nil => rfl
  | cons c rest ih =>
    cases narrow : isAscii c with
    | true =>
      have next : (bytes rest).head? != some ':' ↔ rest.head? != some ':' := by
        rw [bne_iff_ne, bne_iff_ne, ne_eq, head?_bytes rfl]
      rw [bytes_cons, bytesOf_ascii narrow, List.singleton_append, cutColon?, cutColon?, ih]
      simp only [Bool.and_eq_true, next]
      split
      · rfl
      · cases cutColon? (c == ':') rest with
        | none => rfl
        | some cut => simp only [Option.map_some, bytes_cons, bytesOf_ascii narrow,
            List.singleton_append]
    | false =>
      have plain : ':' ∉ bytesOf c := by
        intro mem
        cases isAscii_of_mem_bytesOf narrow mem
      have other : (c == ':') = false := by
        rw [beq_eq_false_iff_ne]
        rintro rfl
        cases narrow
      rw [bytes_cons, cutColon?_plain_append (bytesOf_ne_nil c) plain, ih, cutColon?, other,
        if_neg (by simp), Option.map_map, Option.map_map]
      rfl

theorem textOf_plain (gap : Text) : Piece.textOf (gap.map .plain) = gap := by
  induction gap with
  | nil => rfl
  | cons c gap ih => exact congrArg (c :: ·) ih

theorem splitFrom_gap {afterColon : Bool} (gap : Text) {tail : List Piece}
    (closed : tail.head?.any Piece.isColon = false)
    (fresh : ∀ flag, Piece.splitFrom flag tail = Piece.splitFrom false tail) :
    Piece.splitFrom afterColon (gap.map .plain ++ tail) =
      match cutColon? afterColon gap with
      | some (before, after) => some (before, after ++ Piece.textOf tail)
      | none => (Piece.splitFrom false tail).map fun (before, after) => (gap ++ before, after) := by
  induction gap generalizing afterColon with
  | nil =>
    rw [List.map_nil, List.nil_append, fresh]
    cases Piece.splitFrom false tail <;> rfl
  | cons c gap ih =>
    have next : (!(gap.map Piece.plain ++ tail).head?.any Piece.isColon) =
        (gap.head? != some ':') := by
      cases gap with
      | nil => exact congrArg not closed
      | cons d gap => exact congrArg not (Piece.isColon_plain d)
    rw [List.map_cons, List.cons_append, Piece.splitFrom, Piece.isColon_plain, next, cutColon?, ih]
    split
    · simp only [Piece.textOf, List.flatMap_append]
      rw [← Piece.textOf, textOf_plain]
    · cases cutColon? (c == ':') gap with
      | some cut => rfl
      | none => cases Piece.splitFrom false tail <;> rfl

theorem splitGaps_cons {line front gap rest : Text} (whole : front ++ gap ++ rest = line)
    (stop : Nat) (others : List (Nat × Nat)) :
    splitGaps line front.byteLength (((front ++ gap).byteLength, stop) :: others) =
      match cutColon? false gap with
      | some (before, after) => .ok (some ((front ++ before).trim, (after ++ rest).trim))
      | none => splitGaps line stop others := by
  rw [splitGaps, ← whole, textSlice_append, ok_bind, singleColon?_eq, ok_bind, cutColon?_bytes]
  cases cut : cutColon? false gap with
  | none => rfl
  | some parts =>
    obtain ⟨before, after⟩ := parts
    have before_colon : front ++ gap ++ rest = (front ++ before) ++ (':' :: after ++ rest) := by
      rw [← cutColon?_append cut]
      simp
    have behind_colon : front ++ gap ++ rest = (front ++ before ++ [':']) ++ (after ++ rest) := by
      rw [← cutColon?_append cut]
      simp
    have offset : front.byteLength + (bytes before).length = (front ++ before).byteLength := by
      rw [length_bytes, byteLength_append]
    have next : (front ++ before).byteLength + 1 = (front ++ before ++ [':']).byteLength :=
      (byteLength_append _ [':']).symm
    simp only [Option.map_some]
    rw [offset, before_colon, textTo_append, ok_bind, ← before_colon, behind_colon, next,
      textFrom_append]
    rfl

theorem splitGaps_pieces {line : Text} (front gap : Text) {pieces : List Piece}
    (whole : front ++ gap ++ Piece.textOf pieces = line) :
    splitGaps line front.byteLength
        (spansFrom (front ++ gap).byteLength pieces ++ [(line.byteLength, line.byteLength)]) =
      .ok ((Piece.splitFrom false (gap.map .plain ++ pieces)).map fun (before, after) =>
        ((front ++ before).trim, after.trim)) := by
  induction pieces generalizing front gap with
  | nil =>
    have ends : line.byteLength = (front ++ gap).byteLength := by
      rw [← whole]
      simp [Piece.textOf]
    rw [spansFrom, List.nil_append, ends, splitGaps_cons whole, splitFrom_gap gap rfl fun _ => rfl]
    cases cutColon? false gap <;> rfl
  | cons piece rest ih =>
    cases piece with
    | plain c =>
      have longer : (front ++ gap).byteLength + c.utf8Size =
          (front ++ (gap ++ [c])).byteLength := by
        simp [Nat.add_assoc]
      have moved := ih front (gap ++ [c]) (by simpa [Piece.textOf, Piece.text] using whole)
      rw [spansFrom, longer, moved]
      simp
    | span text =>
      have longer : (front ++ gap).byteLength + text.byteLength =
          (front ++ gap ++ text).byteLength := (byteLength_append _ _).symm
      have moved := ih (front ++ gap ++ text) []
        (by simpa [Piece.textOf, Piece.text] using whole)
      rw [spansFrom, List.cons_append, splitGaps_cons (by simpa [Piece.textOf] using whole),
        splitFrom_gap gap rfl fun _ => rfl]
      cases cutColon? false gap with
      | some cut => rfl
      | none =>
        rw [List.append_nil] at moved
        have passed : Piece.splitFrom false (.span text :: rest) =
            (Piece.splitFrom false rest).map fun (before, after) => (text ++ before, after) := rfl
        simp only [passed, Option.map_map]
        rw [longer, moved, List.map_nil, List.nil_append]
        cases Piece.splitFrom false rest with
        | none => rfl
        | some parts => simp

theorem splitColon?_eq (line : Text) : splitColon? line = .ok line.splitColon? := by
  have whole := Markup.textOf_pieces line
  have found : splitGaps line 0 _ = _ := splitGaps_pieces [] [] whole
  exact found

end Checked

end DocMarkup
