import DocMarkup.LineCursor

/-!
Reading by position. The elements of a list are counted, those of a text by the bytes of its UTF-8
encoding, and whoever reads outside, or between the bytes of one character, reads nothing: the
program would stop there.
-/

namespace DocMarkup

/-- What the program would stop with. -/
inductive Fault where
  | pastEnd (e : PastEnd)
  | badIndex (index length : Nat)
  | badSlice (start stop length : Nat)
  | underflow
  | endless

namespace Checked

section Runs

variable {α β : Type}

@[simp] theorem ok_bind (a : α) (f : α → Except Fault β) : (Except.ok a >>= f) = f a := rfl

@[simp] theorem pure_eq_ok (a : α) : (pure a : Except Fault α) = .ok a := rfl

theorem mapM_eq_ok {f : α → Except Fault β} {g : α → β} {items : List α}
    (same : ∀ a ∈ items, f a = .ok (g a)) : items.mapM f = .ok (items.map g) := by
  induction items with
  | nil => rfl
  | cons a items ih =>
    obtain ⟨first, others⟩ := List.forall_mem_cons.mp same
    rw [List.mapM_cons, first, ih others]
    rfl

theorem foldlM_eq_ok {f : β → α → Except Fault β} {g : β → α → β} {items : List α}
    (same : ∀ b, ∀ a ∈ items, f b a = .ok (g b a)) (b : β) :
    items.foldlM f b = .ok (items.foldl g b) := by
  induction items generalizing b with
  | nil => rfl
  | cons a items ih =>
    rw [List.foldlM_cons, same b a List.mem_cons_self, ok_bind, List.foldl_cons]
    exact ih (fun b a mem => same b a (List.mem_cons_of_mem _ mem)) (g b a)

theorem findM?_eq_ok {p : α → Except Fault Bool} {q : α → Bool} {items : List α}
    (same : ∀ a ∈ items, p a = .ok (q a)) : items.findM? p = .ok (items.find? q) := by
  induction items with
  | nil => rfl
  | cons a items ih =>
    obtain ⟨first, others⟩ := List.forall_mem_cons.mp same
    rw [List.findM?, first, ok_bind, List.find?_cons, ih others]
    cases q a <;> rfl

end Runs

section Lists

variable {α : Type}

def element (items : List α) (index : Nat) : Except Fault α :=
  match items[index]? with
  | some a => .ok a
  | none => .error (.badIndex index items.length)

def slice (items : List α) (start stop : Nat) : Except Fault (List α) :=
  if start ≤ stop ∧ stop ≤ items.length then .ok ((items.take stop).drop start)
  else .error (.badSlice start stop items.length)

def sliceFrom (items : List α) (start : Nat) : Except Fault (List α) :=
  slice items start items.length

def difference (a b : Nat) : Except Fault Nat :=
  if b ≤ a then .ok (a - b) else .error .underflow

theorem element_eq {items : List α} {index : Nat} {a : α} (found : items[index]? = some a) :
    element items index = .ok a := by
  rw [element, found]

theorem element_append (front : List α) (a : α) (rest : List α) :
    element (front ++ a :: rest) front.length = .ok a :=
  element_eq (by simp)

theorem slice_append (front middle rest : List α) :
    slice (front ++ middle ++ rest) front.length (front ++ middle).length = .ok middle := by
  have inside : front.length ≤ (front ++ middle).length ∧
      (front ++ middle).length ≤ (front ++ middle ++ rest).length := by
    simp only [List.length_append]
    omega
  rw [slice, if_pos inside, List.take_left, List.drop_left]

theorem sliceFrom_append (front rest : List α) :
    sliceFrom (front ++ rest) front.length = .ok rest := by
  have whole := slice_append front rest []
  rwa [List.append_nil] at whole

theorem sliceFrom_eq {items : List α} {start : Nat} (inside : start ≤ items.length) :
    sliceFrom items start = .ok (items.drop start) := by
  rw [sliceFrom, slice, if_pos ⟨inside, Nat.le_refl _⟩, List.take_length]

@[simp] theorem sliceFrom_cons_one (a : α) (rest : List α) : sliceFrom (a :: rest) 1 = .ok rest :=
  sliceFrom_append [a] rest

theorem difference_of_le {a b : Nat} (bound : b ≤ a) : difference a b = .ok (a - b) := if_pos bound

theorem difference_add (a b : Nat) : difference (a + b) b = .ok a := by
  rw [difference_of_le (Nat.le_add_left b a), Nat.add_sub_cancel]

end Lists

theorem byteLength_cons (c : Char) (rest : Text) :
    Text.byteLength (c :: rest) = c.utf8Size + Text.byteLength rest := rfl

@[simp] theorem byteLength_singleton (c : Char) : Text.byteLength [c] = c.utf8Size := rfl

@[simp] theorem byteLength_append (front rest : Text) :
    Text.byteLength (front ++ rest) = front.byteLength + rest.byteLength := by
  induction front with
  | nil => simp [Text.byteLength]
  | cons c front ih => rw [List.cons_append, byteLength_cons, byteLength_cons, ih, Nat.add_assoc]

def textTo (text : Text) (stop : Nat) : Except Fault Text :=
  match stop, text with
  | 0, _ => .ok []
  | stop + 1, [] => .error (.badSlice 0 (stop + 1) 0)
  | stop + 1, c :: rest =>
    if c.utf8Size ≤ stop + 1 then (c :: ·) <$> textTo rest (stop + 1 - c.utf8Size)
    else .error (.badSlice 0 (stop + 1) (Text.byteLength (c :: rest)))
termination_by structural text

def textFrom (text : Text) (start : Nat) : Except Fault Text :=
  match start, text with
  | 0, text => .ok text
  | start + 1, [] => .error (.badSlice (start + 1) 0 0)
  | start + 1, c :: rest =>
    if c.utf8Size ≤ start + 1 then textFrom rest (start + 1 - c.utf8Size)
    else .error (.badSlice (start + 1) (Text.byteLength (c :: rest)) (Text.byteLength (c :: rest)))
termination_by structural text

def textSlice (text : Text) (start stop : Nat) : Except Fault Text := do
  textFrom (← textTo text stop) start

theorem textTo_append (front rest : Text) :
    textTo (front ++ rest) front.byteLength = .ok front := by
  induction front with
  | nil => cases rest <;> simp [textTo, Text.byteLength]
  | cons c front ih =>
    have size : c.utf8Size + Text.byteLength front =
        c.utf8Size - 1 + Text.byteLength front + 1 := by
      have := c.utf8Size_pos
      omega
    rw [List.cons_append, byteLength_cons, size, textTo, if_pos (by omega), ← size,
      Nat.add_sub_cancel_left, ih]
    rfl

theorem textFrom_append (front rest : Text) :
    textFrom (front ++ rest) front.byteLength = .ok rest := by
  induction front with
  | nil => cases rest <;> simp [textFrom, Text.byteLength]
  | cons c front ih =>
    have size : c.utf8Size + Text.byteLength front =
        c.utf8Size - 1 + Text.byteLength front + 1 := by
      have := c.utf8Size_pos
      omega
    rw [List.cons_append, byteLength_cons, size, textFrom, if_pos (by omega), ← size,
      Nat.add_sub_cancel_left, ih]

theorem textSlice_append (front middle rest : Text) :
    textSlice (front ++ middle ++ rest) front.byteLength (front ++ middle).byteLength =
      .ok middle := by
  rw [textSlice, textTo_append, ok_bind, textFrom_append]

example : textFrom "é=1" 1 = .error (.badSlice 1 4 4) := rfl

def isAscii (c : Char) : Bool := c.toNat ≤ 127

def bytesOf (c : Char) : Text := (String.utf8EncodeChar c).map Char.ofUInt8

def bytes (text : Text) : Text := text.flatMap bytesOf

theorem toNat_ofUInt8 (b : UInt8) : (Char.ofUInt8 b).toNat = b.toNat := rfl

theorem bytesOf_ascii {c : Char} (ascii : isAscii c = true) : bytesOf c = [c] := by
  have small : c.toNat ≤ 127 := of_decide_eq_true ascii
  have encoded : String.utf8EncodeChar c = [UInt8.ofNat c.toNat] := if_pos small
  rw [bytesOf, encoded, List.map_singleton]
  refine congrArg (· :: []) (Char.toNat_inj.mp ?_)
  rw [toNat_ofUInt8, UInt8.toNat_ofNat']
  omega

theorem isAscii_of_mem_bytesOf {c b : Char} (wide : isAscii c = false) (mem : b ∈ bytesOf c) :
    isAscii b = false := by
  have large : ¬ c.val.toNat ≤ 127 := of_decide_eq_false wide
  obtain ⟨byte, encoded, rfl⟩ := List.mem_map.mp mem
  -- Every byte is at least 128: a continuation byte or one that says how many of them follow.
  have high : 128 ≤ byte.toNat := by
    simp only [String.utf8EncodeChar, large, ↓reduceIte] at encoded
    split at encoded
    · simp only [List.mem_cons, List.not_mem_nil, or_false] at encoded
      rcases encoded with rfl | rfl <;> rw [UInt8.toNat_ofNat'] <;> omega
    split at encoded
    · simp only [List.mem_cons, List.not_mem_nil, or_false] at encoded
      rcases encoded with rfl | rfl | rfl <;> rw [UInt8.toNat_ofNat'] <;> omega
    · simp only [List.mem_cons, List.not_mem_nil, or_false] at encoded
      rcases encoded with rfl | rfl | rfl | rfl <;> rw [UInt8.toNat_ofNat'] <;> omega
  exact decide_eq_false (by rw [toNat_ofUInt8]; omega)

theorem bytesOf_ne_nil (c : Char) : bytesOf c ≠ [] := by
  have size := c.utf8Size_pos
  rw [← String.length_utf8EncodeChar, ← List.length_map (f := Char.ofUInt8)] at size
  exact List.length_pos_iff.mp size

theorem exists_bytesOf_wide {c : Char} (wide : isAscii c = false) :
    ∃ b others, bytesOf c = b :: others ∧ isAscii b = false ∧ ∀ d ∈ others, isAscii d = false := by
  obtain ⟨b, others, encoded⟩ := List.exists_cons_of_ne_nil (bytesOf_ne_nil c)
  have all : ∀ d ∈ bytesOf c, isAscii d = false := fun d => isAscii_of_mem_bytesOf wide
  rw [encoded] at all
  exact ⟨b, others, encoded, List.forall_mem_cons.mp all⟩

theorem bytes_cons (c : Char) (rest : Text) : bytes (c :: rest) = bytesOf c ++ bytes rest := rfl

@[simp] theorem bytes_append (front rest : Text) :
    bytes (front ++ rest) = bytes front ++ bytes rest :=
  List.flatMap_append

theorem head?_bytes {text : Text} {x : Char} (ascii : isAscii x = true) :
    (bytes text).head? = some x ↔ text.head? = some x := by
  cases text with
  | nil => rfl
  | cons c rest =>
    cases narrow : isAscii c with
    | true => rw [bytes_cons, bytesOf_ascii narrow]; rfl
    | false =>
      obtain ⟨b, others, encoded, wide, -⟩ := exists_bytesOf_wide narrow
      rw [bytes_cons, encoded, List.cons_append, List.head?_cons, List.head?_cons]
      constructor
      · rintro ⟨⟩
        rw [ascii] at wide
        cases wide
      · rintro ⟨⟩
        rw [ascii] at narrow
        cases narrow

theorem length_bytesOf (c : Char) : (bytesOf c).length = c.utf8Size := by
  rw [bytesOf, List.length_map, String.length_utf8EncodeChar]

theorem length_bytes (text : Text) : (bytes text).length = text.byteLength := by
  induction text with
  | nil => rfl
  | cons c rest ih =>
    rw [bytes, List.flatMap_cons, List.length_append, length_bytesOf, ← bytes, ih, byteLength_cons]

end Checked

end DocMarkup
