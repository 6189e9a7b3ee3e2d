import DocMarkup.Proofs.Checked.Access
import DocMarkup.Proofs.Outline.Assigned

namespace DocMarkup

namespace Checked

def scanFrom (line : Text) (i depth : Nat) (literal : Option Literal) : Except Fault SourceState :=
  if _inside : i < line.length then do
    let b ← element line i
    match literal with
    | some opened =>
      if b == '\\' then scanFrom line (i + 2) depth literal
      else if b != opened.quote then scanFrom line (i + 1) depth literal
      else if !opened.triple then scanFrom line (i + 1) depth none
      else
        let rest ← sliceFrom line i
        if rest.take 3 == [b, b, b] then scanFrom line (i + 3) depth none
        else scanFrom line (i + 1) depth literal
    | none =>
      if b == '#' then return ⟨depth, none, false⟩
      else if isQuote b then
        let rest ← sliceFrom line i
        if rest.take 3 == [b, b, b] then scanFrom line (i + 3) depth (some ⟨b, true⟩)
        else scanFrom line (i + 1) depth (some ⟨b, false⟩)
      else if b == '\\' && i + 1 == line.length then return ⟨depth, none, true⟩
      else scanFrom line (i + 1) (bracketDepth depth b) none
  else return ⟨depth, literal, false⟩
termination_by line.length - i

def next (state : SourceState) (line : Text) : Except Fault SourceState := do
  return (← scanFrom (bytes line) 0 state.depth state.literal).endLine line

def ofLine (number : Nat) (line : Text) : Except Fault Statement := do
  return ⟨number, ← difference line.byteLength line.trimStart.byteLength, line.trimStart⟩

def begun (number : Nat) (state : SourceState) (line : Text) : Except Fault (List Statement) :=
  if state.atStart && Statement.hasCode line then do return [← ofLine number line]
  else .ok []

def startsFrom (number : Nat) (state : SourceState) : List Text → Except Fault (List Statement)
  | [] => .ok []
  | line :: rest => do
    let first ← begun number state line
    let behind ← next state line
    return first ++ (← startsFrom (number + 1) behind rest)

def starts (source : Text) : Except Fault (List Statement) := startsFrom 1 {} source.lines

theorem scanFrom_append (front back : Text) (skip depth : Nat) (literal : Option Literal) :
    scanFrom (front ++ back) (front.length + skip) depth literal =
      .ok (SourceState.scan skip depth literal back) := by
  induction back generalizing front skip depth literal with
  | nil =>
    rw [scanFrom, dif_neg (by rw [List.append_nil]; omega)]
    rfl
  | cons c rest ih =>
    have onward (skip depth : Nat) (literal : Option Literal) :
        scanFrom (front ++ c :: rest) (front.length + (skip + 1)) depth literal =
          .ok (SourceState.scan skip depth literal rest) := by
      have moved := ih (front ++ [c]) skip depth literal
      rwa [List.append_assoc, List.singleton_append, List.length_append, List.length_singleton,
        Nat.add_assoc, Nat.add_comm 1] at moved
    cases skip with
    | succ skip => exact onward skip depth literal
    | zero =>
      have inside : front.length < (front ++ c :: rest).length := by simp
      have tripled : ((c :: rest).take 3 == [c, c, c]) = SourceState.isTripled c rest := by
        simp [SourceState.isTripled]
      have last : (front.length + 1 == (front ++ c :: rest).length) = rest.isEmpty := by
        cases rest <;> simp
      rw [Nat.add_zero, scanFrom, dif_pos inside, element_append, ok_bind, sliceFrom_append]
      cases literal with
      | some opened =>
        simp only [SourceState.scan, onward, ok_bind, tripled]
        split
        · rfl
        split
        · rfl
        split
        · rfl
        split <;> rfl
      | none =>
        simp only [SourceState.scan, onward, ok_bind, tripled, last]
        split
        · rfl
        split
        · split <;> rfl
        split <;> rfl

theorem isInert_of_wide {c : Char} (wide : isAscii c = false) : IsInert c :=
  isInert_of_class (p := fun c => !isAscii c) rfl (by rw [wide]; rfl)

theorem ne_of_wide {c x : Char} (wide : isAscii c = false) (ascii : isAscii x = true) : c ≠ x := by
  rintro rfl
  rw [ascii] at wide
  cases wide

theorem isAscii_of_isQuote {c : Char} (quote : isQuote c = true) : isAscii c = true := by
  simp only [isQuote, Bool.or_eq_true, beq_iff_eq] at quote
  rcases quote with rfl | rfl <;> rfl

theorem scan_wide {before : Text} (wide : ∀ b ∈ before, isAscii b = false) (depth : Nat)
    {literal : Option Literal} (quoted : Literal.IsQuoted literal) (line : Text) :
    SourceState.scan 0 depth literal (before ++ line) = SourceState.scan 0 depth literal line := by
  cases literal with
  | none =>
    exact SourceState.scan_inert_append (fun b mem => isInert_of_wide (wide b mem)) depth line
  | some opened =>
    have ascii := isAscii_of_isQuote (quoted opened rfl)
    induction before with
    | nil => rfl
    | cons b before ih =>
      obtain ⟨first, others⟩ := List.forall_mem_cons.mp wide
      have escape : (b == '\\') = false := beq_false_of_ne (ne_of_wide first rfl)
      have inner : (b != opened.quote) = true := bne_iff_ne.mpr (ne_of_wide first ascii)
      rw [List.cons_append, SourceState.scan, escape, inner]
      exact ih others

theorem isEmpty_bytes (text : Text) : (bytes text).isEmpty = text.isEmpty := by
  cases text with
  | nil => rfl
  | cons c rest =>
    obtain ⟨b, others, encoded⟩ := List.exists_cons_of_ne_nil (bytesOf_ne_nil c)
    rw [bytes_cons, encoded]
    rfl

theorem isTripled_iff {c : Char} {rest : Text} :
    SourceState.isTripled c rest = true ↔ rest.head? = some c ∧ rest.tail.head? = some c := by
  rcases rest with _ | ⟨d, _ | ⟨e, rest⟩⟩ <;> simp [SourceState.isTripled]

theorem isTripled_bytes {c : Char} (ascii : isAscii c = true) (rest : Text) :
    SourceState.isTripled c (bytes rest) = SourceState.isTripled c rest := by
  rw [Bool.eq_iff_iff, isTripled_iff, isTripled_iff, head?_bytes ascii]
  refine and_congr_right fun first => ?_
  obtain ⟨rest, rfl⟩ := List.head?_eq_some_iff.mp first
  rw [bytes_cons, bytesOf_ascii ascii]
  exact head?_bytes ascii

theorem scan_bytes {skip : Nat} {line : Text} (narrow : (line.take (skip - 1)).all isAscii = true)
    (depth : Nat) {literal : Option Literal} (quoted : Literal.IsQuoted literal) :
    SourceState.scan skip depth literal (bytes line) = SourceState.scan skip depth literal line := by
  induction line generalizing skip depth literal with
  | nil => rfl
  | cons c rest ih =>
    cases ascii : isAscii c with
    | false =>
      match skip with
      | 0 =>
        have passed : ∀ d ∈ [c], isAscii d = false := List.forall_mem_singleton.mpr ascii
        rw [bytes_cons, scan_wide (fun b => isAscii_of_mem_bytesOf ascii) depth quoted,
          ih narrow depth quoted]
        exact (scan_wide passed depth quoted rest).symm
      | 1 =>
        obtain ⟨b, others, encoded, -, continued⟩ := exists_bytesOf_wide ascii
        rw [bytes_cons, encoded]
        exact (scan_wide continued depth quoted _).trans (ih rfl depth quoted)
      | skip + 2 =>
        rw [Nat.add_sub_cancel (m := 1), List.take_succ_cons, List.all_cons, ascii] at narrow
        cases narrow
    | true =>
      rw [bytes_cons, bytesOf_ascii ascii, List.singleton_append]
      match skip with
      | 1 => exact ih rfl depth quoted
      | skip + 2 =>
        rw [Nat.add_sub_cancel (m := 1), List.take_succ_cons, List.all_cons, ascii] at narrow
        show SourceState.scan (skip + 1) depth literal (bytes rest) =
          SourceState.scan (skip + 1) depth literal rest
        refine ih ?_ depth quoted
        exact narrow
      | 0 =>
        -- Two more quotes are one byte wide like the first.
        have behindThree {literal : Option Literal} (tripled : SourceState.isTripled c rest = true)
            (quoted : Literal.IsQuoted literal) :
            SourceState.scan 2 depth literal (bytes rest) =
              SourceState.scan 2 depth literal rest := by
          obtain ⟨behind, rfl⟩ := List.head?_eq_some_iff.mp (isTripled_iff.mp tripled).1
          exact ih (by rw [List.take_succ_cons, List.all_cons, ascii]; rfl) depth quoted
        cases literal with
        | some opened =>
          simp only [SourceState.scan, isTripled_bytes ascii]
          split
          · exact ih rfl depth quoted
          split
          · exact ih rfl depth quoted
          split
          · exact ih rfl depth Literal.isQuoted_none
          split
          · rename_i tripled
            exact behindThree tripled Literal.isQuoted_none
          · exact ih rfl depth quoted
        | none =>
          simp only [SourceState.scan, isTripled_bytes ascii, isEmpty_bytes]
          split
          · rfl
          split
          · rename_i quote
            split
            · rename_i tripled
              exact behindThree tripled (Literal.isQuoted_some quote true)
            · exact ih rfl depth (Literal.isQuoted_some quote false)
          split
          · rfl
          · exact ih rfl (bracketDepth depth c) Literal.isQuoted_none

theorem next_eq {state : SourceState} (quoted : Literal.IsQuoted state.literal) (line : Text) :
    next state line = .ok (state.next line) := by
  have read := scanFrom_append [] (bytes line) 0 state.depth state.literal
  rw [scan_bytes rfl state.depth quoted] at read
  rw [next, show 0 = [].length + 0 from rfl, ← List.nil_append (bytes line), read]
  rfl

theorem ofLine_eq (number : Nat) (line : Text) :
    ofLine number line = .ok (Statement.ofLine number line) := by
  have whole : line.byteLength = line.margin.byteLength + line.trimStart.byteLength := by
    rw [← byteLength_append, Text.margin, Text.trimStart, List.takeWhile_append_dropWhile]
  rw [ofLine, whole, difference_add]
  rfl

theorem startsFrom_eq (number : Nat) {state : SourceState}
    (quoted : Literal.IsQuoted state.literal) (lines : List Text) :
    startsFrom number state lines = .ok (Statement.startsFrom number state lines) := by
  induction lines generalizing number state with
  | nil => rfl
  | cons line rest ih =>
    have behind := ih (number + 1) (ScanPoint.isQuoted_next quoted line)
    rw [startsFrom, begun, next_eq quoted, Statement.startsFrom]
    split
    · rw [ofLine_eq, ok_bind, pure_eq_ok, ok_bind, ok_bind, behind]
      rfl
    · rw [ok_bind, ok_bind, behind]
      rfl

theorem starts_eq (source : Text) : starts source = .ok (Statement.starts source) :=
  startsFrom_eq 1 Literal.isQuoted_none source.lines

end Checked

end DocMarkup
