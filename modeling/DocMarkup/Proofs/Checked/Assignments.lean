import DocMarkup.Proofs.Checked.Statements

namespace DocMarkup

namespace Checked

def preceding (text : Text) (i : Nat) : Except Fault Char :=
  if i = 0 then .ok ' ' else do element text (← difference i 1)

def isBare (text : Text) (i : Nat) : Except Fault Bool := do
  let previous ← preceding text i
  return text[i + 1]?.getD ' ' != '=' && !Assignment.joinsEquals previous

def equalsFrom (text : Text) (i depth : Nat) (quote : Option Char) : Except Fault (List Nat) :=
  if _inside : i < text.length then do
    let b ← element text i
    match quote with
    | some q =>
      if b == '\\' then equalsFrom text (i + 2) depth quote
      else equalsFrom text (i + 1) depth (if b == q then none else quote)
    | none =>
      if b == '#' then return []
      else if b == '=' && depth == 0 then
        let bare ← isBare text i
        let others ← equalsFrom text (i + 1) depth none
        return if bare then i :: others else others
      else equalsFrom text (i + 1) (bracketDepth depth b) (if isQuote b then some b else none)
  else return []
termination_by text.length - i

def equalsSigns (text : Text) : Except Fault (List Nat) := equalsFrom (bytes text) 0 0 none

def targetsFrom (text : Text) (start : Nat) : List Nat → Except Fault (List Text)
  | [] => .ok []
  | position :: rest => do
    let target ← textSlice text start position
    if isIdentifier target.trim then
      return target.trim :: (← targetsFrom text (position + 1) rest)
    else return []

def targets (text : Text) : Except Fault (List Text) := do
  targetsFrom text 0 (← equalsSigns text)

def value? (text : Text) : Except Fault (Option Text) := do
  let names ← targets text
  if names.isEmpty then return none
  else
    let position ← element (← equalsSigns text) (← difference names.length 1)
    return some (← textFrom text (position + 1))

def cutsFrom (start : Nat) (text : Text) : List Nat :=
  match _found : Assignment.cut? text with
  | none => []
  | some (before, after) =>
    (start + before.length) :: cutsFrom (start + before.length + 1) after
termination_by text.length
decreasing_by
  rw [← Assignment.cut?_append _found, List.length_append, List.length_cons]
  omega

def cutsAt (start : Nat) : Option (Text × Text) → List Nat
  | none => []
  | some (before, after) => (start + before.length) :: cutsFrom (start + before.length + 1) after

theorem cutsFrom_eq (start : Nat) (text : Text) :
    cutsFrom start text = cutsAt start (Assignment.cut? text) := by
  rw [cutsFrom]
  split
  · rename_i found
    rw [found]
    rfl
  · rename_i found
    rw [found]
    rfl

theorem cutsAt_map (start : Nat) (front : Text) (cut : Option (Text × Text)) :
    cutsAt start (cut.map fun (before, after) => (front ++ before, after)) =
      cutsAt (start + front.length) cut := by
  cases cut with
  | none => rfl
  | some cut => simp [cutsAt, Nat.add_assoc]

theorem cutFrom_quoted {q c : Char} (other : c ≠ '\\') (depth : Nat) (previous : Char)
    (rest : Text) :
    Assignment.cutFrom (some q) depth previous (c :: rest) =
      (Assignment.cutFrom (if c == q then none else some q) depth c rest).map
        fun (before, after) => (c :: before, after) := by
  cases rest <;> simp [Assignment.cutFrom, other]

theorem cutFrom_previous {quote : Option Char} {depth : Nat} {previous other : Char} {text : Text}
    (same : text.head? = some '=' →
      Assignment.joinsEquals previous = Assignment.joinsEquals other) :
    Assignment.cutFrom quote depth previous text = Assignment.cutFrom quote depth other text := by
  cases text with
  | nil => rfl
  | cons c rest =>
    cases quote with
    | some q => cases rest <;> simp only [Assignment.cutFrom]
    | none =>
      rw [Assignment.cutFrom_code, Assignment.cutFrom_code]
      by_cases equals : c = '='
      · subst equals
        rw [same rfl]
      · rw [beq_false_of_ne equals]
        rfl

theorem preceding_append (front rest : Text) :
    preceding (front ++ rest) front.length = .ok (front.getLast?.getD ' ') := by
  rcases List.eq_nil_or_concat front with rfl | ⟨front, d, rfl⟩
  · rfl
  · have before := element_append front d rest
    rw [preceding, if_neg (by simp), List.length_concat, difference_add, ok_bind,
      List.concat_eq_append, List.append_assoc, List.singleton_append, before, List.getLast?_concat]
    rfl

theorem isBare_append (front rest : Text) :
    isBare (front ++ '=' :: rest) front.length =
      .ok (rest.head? != some '=' && !Assignment.joinsEquals (front.getLast?.getD ' ')) := by
  have next : ((front ++ '=' :: rest)[front.length + 1]?.getD ' ' != '=') =
      (rest.head? != some '=') := by
    rw [List.getElem?_append_right (Nat.le_add_right _ 1), Nat.add_sub_cancel_left,
      List.getElem?_cons_succ, ← List.head?_eq_getElem?]
    cases rest <;> rfl
  rw [isBare, preceding_append, ok_bind, next]
  rfl

theorem equalsFrom_append (front rest : Text) (depth : Nat) (quote : Option Char) :
    equalsFrom (front ++ rest) front.length depth quote =
      .ok (cutsAt front.length
        (Assignment.cutFrom quote depth (front.getLast?.getD ' ') rest)) := by
  match rest with
  | [] =>
    rw [equalsFrom, dif_neg (by simp)]
    rfl
  | c :: rest =>
    have onward (depth : Nat) (quote : Option Char) :
        equalsFrom (front ++ c :: rest) (front.length + 1) depth quote =
          .ok (cutsAt (front.length + 1) (Assignment.cutFrom quote depth c rest)) := by
      have moved := equalsFrom_append (front ++ [c]) rest depth quote
      rw [List.append_assoc, List.singleton_append, List.length_append, List.length_singleton,
        List.getLast?_concat] at moved
      exact moved
    have inside : front.length < (front ++ c :: rest).length := by simp
    rw [equalsFrom, dif_pos inside, element_append, ok_bind]
    cases quote with
    | some q =>
      by_cases escape : c = '\\'
      · subst escape
        match rest with
        | [] =>
          -- The index leaps over the end.
          show equalsFrom (front ++ ['\\']) (front.length + 2) depth (some q) = .ok []
          rw [equalsFrom, dif_neg (by simp)]
          rfl
        | d :: rest =>
          have moved := equalsFrom_append (front ++ ['\\', d]) rest depth (some q)
          have last : (front ++ ['\\', d]).getLast? = some d := by simp
          rw [List.append_assoc, List.length_append, last] at moved
          exact moved.trans (congrArg Except.ok (cutsAt_map front.length ['\\', d] _).symm)
      · dsimp only
        rw [beq_false_of_ne escape, cutFrom_quoted escape, if_neg Bool.false_ne_true, onward]
        exact congrArg Except.ok (cutsAt_map front.length [c] _).symm
    | none =>
      dsimp only
      rw [Assignment.cutFrom_code]
      split
      · rfl
      split
      · rename_i equals
        simp only [Bool.and_eq_true, beq_iff_eq] at equals
        obtain ⟨rfl, rfl⟩ := equals
        rw [isBare_append, ok_bind, onward, ok_bind, Bool.and_assoc]
        cases bare :
          rest.head? != some '=' && !Assignment.joinsEquals (front.getLast?.getD ' ') with
        | true =>
          -- The search begins anew behind the sign, as if no sign stood in front of it; that would
          -- matter only to another sign, and none follows.
          have apart := bne_iff_ne.mp (Bool.and_eq_true_iff.mp bare).1
          have again : Assignment.cutFrom none 0 '=' rest = Assignment.cut? rest :=
            cutFrom_previous fun first => absurd first apart
          rw [again, ← cutsFrom_eq]
          rfl
        | false => exact congrArg Except.ok (cutsAt_map front.length ['='] _).symm
      · rename_i other
        rw [onward, Bool.eq_false_iff.mpr other, Bool.false_and, Bool.false_and,
          if_neg Bool.false_ne_true]
        exact congrArg Except.ok (cutsAt_map front.length [c] _).symm
termination_by rest.length

def bytesAround (cut : Text × Text) : Text × Text := (bytes cut.1, bytes cut.2)

theorem joinsEquals_of_wide {c : Char} (wide : isAscii c = false) :
    Assignment.joinsEquals c = false := by
  rw [Assignment.joinsEquals, ← Bool.not_eq_true, List.contains_iff_mem]
  intro mem
  have ascii : ("=!<>:+-*/%&|^@".toList.all isAscii) = true := rfl
  rw [List.all_eq_true.mp ascii c mem] at wide
  cases wide

def IsNarrow (quote : Option Char) : Prop := ∀ q ∈ quote, isAscii q = true

theorem isNarrow_none : IsNarrow none := by
  intro q absurd
  cases absurd

theorem cutFrom_cons_wide {quote : Option Char} (narrow : IsNarrow quote) {c : Char}
    (wide : isAscii c = false) (depth : Nat) (previous : Char) (rest : Text) :
    Assignment.cutFrom quote depth previous (c :: rest) =
      (Assignment.cutFrom quote depth c rest).map fun (before, after) => (c :: before, after) := by
  cases quote with
  | some q =>
    rw [cutFrom_quoted (ne_of_wide wide rfl), beq_false_of_ne (ne_of_wide wide (narrow q rfl))]
    rfl
  | none =>
    have inert := isInert_of_wide wide
    rw [Assignment.cutFrom_code, inert.hash, beq_false_of_ne (ne_of_wide wide rfl), inert.quote,
      bracketDepth, inert.opens, inert.closes]
    rfl

theorem cutFrom_wide {quote : Option Char} (narrow : IsNarrow quote) {previous : Char}
    (behind : isAscii previous = false) {front : Text} (wide : ∀ b ∈ front, isAscii b = false)
    (depth : Nat) (rest : Text) :
    Assignment.cutFrom quote depth previous (front ++ rest) =
      (Assignment.cutFrom quote depth previous rest).map
        fun (before, after) => (front ++ before, after) := by
  induction front generalizing previous with
  | nil =>
    rw [List.nil_append]
    cases Assignment.cutFrom quote depth previous rest <;> rfl
  | cons b front ih =>
    obtain ⟨first, others⟩ := List.forall_mem_cons.mp wide
    have same : Assignment.cutFrom quote depth b rest =
        Assignment.cutFrom quote depth previous rest :=
      cutFrom_previous fun _ => by rw [joinsEquals_of_wide first, joinsEquals_of_wide behind]
    rw [List.cons_append, cutFrom_cons_wide narrow first, ih first others, same, Option.map_map]
    rfl

theorem cutFrom_bytesOf {quote : Option Char} (narrow : IsNarrow quote) {c : Char}
    (wide : isAscii c = false) (depth : Nat) (previous : Char) (rest : Text) :
    Assignment.cutFrom quote depth previous (bytesOf c ++ rest) =
      (Assignment.cutFrom quote depth c rest).map
        fun (before, after) => (bytesOf c ++ before, after) := by
  obtain ⟨b, others, encoded, first, continued⟩ := exists_bytesOf_wide wide
  have same : Assignment.cutFrom quote depth b rest = Assignment.cutFrom quote depth c rest :=
    cutFrom_previous fun _ => by rw [joinsEquals_of_wide first, joinsEquals_of_wide wide]
  rw [encoded, List.cons_append, cutFrom_cons_wide narrow first,
    cutFrom_wide narrow first continued, same, Option.map_map]
  rfl

theorem cutFrom_escaped {q : Char} (narrow : IsNarrow (some q)) (depth : Nat) (previous c : Char)
    (rest : Text) :
    Assignment.cutFrom (some q) depth previous ('\\' :: (bytesOf c ++ rest)) =
      (Assignment.cutFrom (some q) depth c rest).map
        fun (before, after) => ('\\' :: (bytesOf c ++ before), after) := by
  cases ascii : isAscii c with
  | true =>
    rw [bytesOf_ascii ascii]
    rfl
  | false =>
    -- Such a byte would belong to the text in front of a cut without a backslash too.
    have plain : Assignment.cutFrom (some q) depth previous ('\\' :: (bytesOf c ++ rest)) =
        (Assignment.cutFrom (some q) depth '\\' (bytesOf c ++ rest)).map
          fun (before, after) => ('\\' :: before, after) := by
      obtain ⟨b, others, encoded, wide, -⟩ := exists_bytesOf_wide ascii
      rw [encoded, List.cons_append, cutFrom_cons_wide narrow wide, Option.map_map]
      rfl
    rw [plain, cutFrom_bytesOf narrow ascii, Option.map_map]
    rfl

theorem map_bytesAround (front : Text) (cut : Option (Text × Text)) :
    (cut.map fun (before, after) => (front ++ before, after)).map bytesAround =
      (cut.map bytesAround).map fun (before, after) => (bytes front ++ before, after) := by
  rw [Option.map_map, Option.map_map]
  refine congrArg (cut.map ·) (funext fun parts => ?_)
  simp only [Function.comp, bytesAround, bytes_append]

theorem cutFrom_bytes {quote : Option Char} (narrow : IsNarrow quote) (depth : Nat)
    (previous : Char) (text : Text) :
    Assignment.cutFrom quote depth previous (bytes text) =
      (Assignment.cutFrom quote depth previous text).map bytesAround := by
  match text with
  | [] => rfl
  | c :: rest =>
    have passed {quote : Option Char} (narrow : IsNarrow quote) (depth : Nat) :
        ((Assignment.cutFrom quote depth c rest).map
            fun (before, after) => (c :: before, after)).map bytesAround =
          (Assignment.cutFrom quote depth c (bytes rest)).map
            fun (before, after) => (bytesOf c ++ before, after) := by
      rw [cutFrom_bytes narrow depth c rest, ← List.append_nil (bytesOf c)]
      exact map_bytesAround [c] _
    cases ascii : isAscii c with
    | false =>
      rw [cutFrom_cons_wide narrow ascii, passed narrow, bytes_cons, cutFrom_bytesOf narrow ascii]
    | true =>
      cases quote with
      | some q =>
        by_cases escape : c = '\\'
        · subst escape
          match rest with
          | [] => rfl
          | d :: rest =>
            have spelled : bytes ['\\', d] = '\\' :: bytesOf d := by
              rw [bytes_cons, bytesOf_ascii ascii, bytes_cons]
              exact congrArg _ (List.append_nil _)
            have moved := map_bytesAround ['\\', d] (Assignment.cutFrom (some q) depth d rest)
            rw [spelled, ← cutFrom_bytes narrow depth d rest] at moved
            rw [bytes_cons, bytesOf_ascii ascii, bytes_cons, List.singleton_append,
              cutFrom_escaped narrow]
            exact moved.symm
        · have closed : IsNarrow (if c == q then none else some q) := by
            split
            · exact isNarrow_none
            · exact narrow
          rw [cutFrom_quoted escape, passed closed, bytes_cons, bytesOf_ascii ascii,
            List.singleton_append, cutFrom_quoted escape]
          rfl
      | none =>
        have opened : IsNarrow (if isQuote c then some c else none) := by
          split
          · rintro _ ⟨⟩
            exact ascii
          · exact isNarrow_none
        have next : ((bytes rest).head? != some '=') = (rest.head? != some '=') := by
          rw [Bool.eq_iff_iff, bne_iff_ne, bne_iff_ne, ne_eq, ne_eq, head?_bytes rfl]
        rw [bytes_cons, bytesOf_ascii ascii, List.singleton_append, Assignment.cutFrom_code,
          Assignment.cutFrom_code, next]
        split
        · rfl
        split
        · rfl
        · rw [passed opened, bytesOf_ascii ascii]
          rfl
termination_by text.length

theorem cut?_bytes (text : Text) :
    Assignment.cut? (bytes text) = (Assignment.cut? text).map bytesAround :=
  cutFrom_bytes isNarrow_none 0 ' ' text

theorem equalsSigns_eq (text : Text) : equalsSigns text = .ok (cutsFrom 0 (bytes text)) := by
  rw [cutsFrom_eq]
  exact equalsFrom_append [] (bytes text) 0 none

theorem byteLength_append_equals (front : Text) :
    Text.byteLength (front ++ ['=']) = front.byteLength + 1 := byteLength_append front ['=']

theorem cutsFrom_bytes_of_cut {text before after : Text}
    (cut : Assignment.cut? text = some (before, after)) (front : Text) :
    cutsFrom front.byteLength (bytes text) =
      (front ++ before).byteLength ::
        cutsFrom (front ++ before ++ ['=']).byteLength (bytes after) := by
  rw [cutsFrom_eq, cut?_bytes, cut]
  simp only [Option.map_some, bytesAround, cutsAt, length_bytes, byteLength_append,
    byteLength_singleton]
  rfl

theorem cutsFrom_bytes_of_no_cut {text : Text} (none : Assignment.cut? text = none)
    (start : Nat) : cutsFrom start (bytes text) = [] := by
  rw [cutsFrom_eq, cut?_bytes, none]
  rfl

theorem append_of_cut {text before after : Text}
    (cut : Assignment.cut? text = some (before, after)) (front : Text) :
    front ++ text = front ++ before ++ ['='] ++ after := by
  rw [← Assignment.cut?_append cut]
  simp

theorem textSlice_of_cut {text before after : Text}
    (cut : Assignment.cut? text = some (before, after)) (front : Text) :
    textSlice (front ++ text) front.byteLength (front ++ before).byteLength = .ok before := by
  rw [append_of_cut cut, List.append_assoc (front ++ before)]
  exact textSlice_append front before _

theorem textFrom_of_cut {text before after : Text}
    (cut : Assignment.cut? text = some (before, after)) (front : Text) :
    textFrom (front ++ text) ((front ++ before).byteLength + 1) = .ok after := by
  have read := textFrom_append (front ++ before ++ ['=']) after
  rwa [← append_of_cut cut, byteLength_append_equals] at read

theorem targetsFrom_eq (front text : Text) :
    targetsFrom (front ++ text) front.byteLength (cutsFrom front.byteLength (bytes text)) =
      .ok (Assignment.targets text) := by
  fun_induction Assignment.split text generalizing front with
  | case1 text before after cut named others ih =>
    have behind := ih (front ++ before ++ ['='])
    rw [← append_of_cut cut, byteLength_append_equals] at behind
    rw [cutsFrom_bytes_of_cut cut, targetsFrom, textSlice_of_cut cut, ok_bind, if_pos named,
      Assignment.targets_of_cut cut, if_pos named, byteLength_append_equals, behind]
    rfl
  | case2 text before after cut unnamed =>
    rw [cutsFrom_bytes_of_cut cut, targetsFrom, textSlice_of_cut cut, ok_bind, if_neg unnamed,
      Assignment.targets_of_cut cut, if_neg unnamed]
    rfl
  | case3 text none =>
    rw [cutsFrom_bytes_of_no_cut none, Assignment.targets_of_no_cut none]
    rfl

theorem targets_eq (text : Text) : targets text = .ok (Assignment.targets text) := by
  rw [targets, equalsSigns_eq]
  exact targetsFrom_eq [] text

theorem exists_value (front : Text) {text : Text} (assigned : Assignment.targets text ≠ []) :
    ∃ position,
      (cutsFrom front.byteLength (bytes text))[(Assignment.targets text).length - 1]? =
          some position ∧
        textFrom (front ++ text) (position + 1) = .ok (Assignment.split text).2 := by
  fun_induction Assignment.split text generalizing front with
  | case1 text before after cut named others ih =>
    rw [cutsFrom_bytes_of_cut cut, Assignment.targets_of_cut cut, if_pos named]
    by_cases last : Assignment.targets after = []
    · rw [last]
      refine ⟨_, rfl, ?_⟩
      rw [textFrom_of_cut cut, congrArg Prod.snd (Assignment.split_of_no_targets last)]
    · obtain ⟨position, found, read⟩ := ih (front ++ before ++ ['=']) last
      rw [← append_of_cut cut] at read
      refine ⟨position, ?_, read⟩
      obtain ⟨name, names, more⟩ := List.exists_cons_of_ne_nil last
      rw [more] at found ⊢
      exact found
  | case2 text before after cut unnamed =>
    rw [Assignment.targets_of_cut cut, if_neg unnamed] at assigned
    exact absurd rfl assigned
  | case3 text none => exact absurd (Assignment.targets_of_no_cut none) assigned

theorem value?_eq (text : Text) : value? text = .ok (Assignment.value? text) := by
  rw [value?, Assignment.value?, targets_eq, ok_bind]
  split
  · rfl
  · rename_i some
    have assigned : Assignment.targets text ≠ [] := fun none => some (List.isEmpty_iff.mpr none)
    obtain ⟨position, found, read⟩ := exists_value [] assigned
    have index : difference (Assignment.targets text).length 1 =
        .ok ((Assignment.targets text).length - 1) :=
      difference_of_le (List.length_pos_iff.mpr assigned)
    have last : element (cutsFrom 0 (bytes text)) ((Assignment.targets text).length - 1) =
        .ok position := element_eq found
    rw [List.nil_append] at read
    rw [equalsSigns_eq, ok_bind, index, ok_bind, last, ok_bind, read]
    rfl

end Checked

end DocMarkup
