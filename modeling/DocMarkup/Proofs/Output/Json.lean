import DocMarkup.Toml.Lexical

/-!
JSON texts and what they say. The grammar tells which texts spell a value, and the decoder reads the
value from the text. It finds the value of every text that spells one, so that no text spells two.
-/

namespace DocMarkup.Json

inductive Value where
  | null
  | boolean (value : Bool)
  | number (numeral : Text)
  | string (text : Text)
  | array (items : List Value)
  | object (members : List (Text × Value))

def isSpace (c : Char) : Bool := c == ' ' || c == '\t' || c == '\n' || c == '\r'

def isWordChar (c : Char) : Bool := c.isAlphanum || c == '+' || c == '-' || c == '.'

def isDigits (text : Text) : Bool := !text.isEmpty && text.all Char.isDigit

def dropSign : Text → Text
  | [] => []
  | c :: rest => if c == '+' || c == '-' then rest else c :: rest

def isExponent : Text → Bool
  | [] => true
  | c :: rest => (c == 'e' || c == 'E') && isDigits (dropSign rest)

def isFraction : Text → Bool
  | [] => true
  | c :: rest =>
    if c == '.' then
      isDigits (rest.takeWhile Char.isDigit) && isExponent (rest.dropWhile Char.isDigit)
    else isExponent (c :: rest)

def isUnsigned (text : Text) : Bool :=
  let whole := text.takeWhile Char.isDigit
  (whole == ['0'] || (!whole.isEmpty && whole.head? != some '0')) &&
    isFraction (text.dropWhile Char.isDigit)

def isNumeral : Text → Bool
  | [] => false
  | c :: rest => if c == '-' then isUnsigned rest else isUnsigned (c :: rest)

def namedValues : List (Text × Value) :=
  [("null", .null), ("true", .boolean true), ("false", .boolean false)]

def IsGap (gap : Text) : Prop := ∀ c ∈ gap, isSpace c = true

instance (gap : Text) : Decidable (IsGap gap) :=
  decidable_of_iff (gap.all isSpace = true) List.all_eq_true

def shortEscapes : List (Char × Char) :=
  [('"', '"'), ('\\', '\\'), ('/', '/'), ('b', '\x08'), ('f', '\x0c'), ('n', '\n'), ('r', '\r'),
    ('t', '\t')]

def isHigh (unit : Nat) : Bool := 0xD800 ≤ unit && unit < 0xDC00

def isLow (unit : Nat) : Bool := 0xDC00 ≤ unit && unit < 0xE000

def pairChar (high low : Nat) : Char :=
  Char.ofNat (0x10000 + (high - 0xD800) * 0x400 + (low - 0xDC00))

inductive IsUnit : Nat → Text → Prop where
  | mk {a b c d : Char} {w x y z : Nat} :
      Toml.hexValue? a = some w → Toml.hexValue? b = some x → Toml.hexValue? c = some y →
      Toml.hexValue? d = some z → IsUnit (((w * 16 + x) * 16 + y) * 16 + z) [a, b, c, d]

/-- The ways to write a character of a string. -/
inductive SpellsChar : Char → Text → Prop where
  | plain {c : Char} : c ≠ '"' → c ≠ '\\' → 0x20 ≤ c.toNat → SpellsChar c [c]
  | short {e c : Char} : (e, c) ∈ shortEscapes → SpellsChar c ['\\', e]
  | unit {n : Nat} {digits : Text} : IsUnit n digits → isHigh n = false → isLow n = false →
      SpellsChar (Char.ofNat n) ('\\' :: 'u' :: digits)
  | pair {high low : Nat} {digits digits' : Text} : IsUnit high digits → isHigh high = true →
      IsUnit low digits' → isLow low = true →
      SpellsChar (pairChar high low) ('\\' :: 'u' :: (digits ++ '\\' :: 'u' :: digits'))

inductive SpellsString : Text → Text → Prop where
  | nil : SpellsString [] []
  | cons {c : Char} {spelled text body : Text} : SpellsChar c spelled → SpellsString text body →
      SpellsString (c :: text) (spelled ++ body)

inductive Part where
  | value (value : Value)
  | padded (value : Value)
  | items (items : List Value)
  | member (member : Text × Value)
  | members (members : List (Text × Value))

inductive Spells : Part → Text → Prop where
  | named {name : Text} {value : Value} : (name, value) ∈ namedValues → Spells (.value value) name
  | number {numeral : Text} : isNumeral numeral = true → Spells (.value (.number numeral)) numeral
  | string {text body : Text} : SpellsString text body →
      Spells (.value (.string text)) ('"' :: (body ++ ['"']))
  | emptyArray {gap : Text} : IsGap gap → Spells (.value (.array [])) ('[' :: (gap ++ [']']))
  | array {items : List Value} {text : Text} : Spells (.items items) text →
      Spells (.value (.array items)) ('[' :: (text ++ [']']))
  | emptyObject {gap : Text} : IsGap gap →
      Spells (.value (.object [])) ('\x7b' :: (gap ++ ['\x7d']))
  | object {members : List (Text × Value)} {text : Text} : Spells (.members members) text →
      Spells (.value (.object members)) ('\x7b' :: (text ++ ['\x7d']))
  | padded {value : Value} {before text behind : Text} : IsGap before → Spells (.value value) text →
      IsGap behind → Spells (.padded value) (before ++ (text ++ behind))
  | lastItem {item : Value} {text : Text} : Spells (.padded item) text → Spells (.items [item]) text
  | item {item : Value} {items : List Value} {text texts : Text} : Spells (.padded item) text →
      Spells (.items items) texts → Spells (.items (item :: items)) (text ++ ',' :: texts)
  | member {name : Text} {value : Value} {before body behind text : Text} : IsGap before →
      SpellsString name body → IsGap behind → Spells (.padded value) text →
      Spells (.member (name, value)) (before ++ '"' :: (body ++ '"' :: (behind ++ ':' :: text)))
  | lastMember {member : Text × Value} {text : Text} : Spells (.member member) text →
      Spells (.members [member]) text
  | members {member : Text × Value} {members : List (Text × Value)} {text texts : Text} :
      Spells (.member member) text → Spells (.members members) texts →
      Spells (.members (member :: members)) (text ++ ',' :: texts)

abbrev Read (α : Type) := Option (α × Text)

def skipGap (text : Text) : Text := text.dropWhile isSpace

def past? (c : Char) : Text → Option Text
  | [] => none
  | d :: rest => if d = c then some rest else none

def unit? : Text → Read Nat
  | a :: b :: c :: d :: rest =>
    match Toml.hexValue? a, Toml.hexValue? b, Toml.hexValue? c, Toml.hexValue? d with
    | some w, some x, some y, some z => some (((w * 16 + x) * 16 + y) * 16 + z, rest)
    | _, _, _, _ => none
  | _ => none

def low? (text : Text) : Read Nat :=
  (((past? '\\' text).bind (past? 'u')).bind unit?).filter fun (unit, _) => isLow unit

def unitChar? (text : Text) : Read Char :=
  (unit? text).bind fun (unit, rest) =>
    if isHigh unit then (low? rest).map fun (low, rest) => (pairChar unit low, rest)
    else if isLow unit then none
    else some (Char.ofNat unit, rest)

def char? : Text → Read Char
  | [] => none
  | c :: rest =>
    if c = '\\' then
      match rest with
      | [] => none
      | e :: rest =>
        if e = 'u' then unitChar? rest else (shortEscapes.lookup e).map fun c => (c, rest)
    else if c = '"' ∨ c.toNat < 0x20 then none
    else some (c, rest)

def string? : Nat → Text → Read Text
  | 0, _ => none
  | bound + 1, text =>
    if text.head? = some '"' then some ([], text.tail)
    else
      (char? text).bind fun (c, rest) =>
        (string? bound rest).map fun (text, rest) => (c :: text, rest)

def word? (text : Text) : Read Value :=
  let word := text.takeWhile isWordChar
  let value :=
    if isNumeral word then some (.number word) else namedValues.lookup word
  value.map fun value => (value, text.dropWhile isWordChar)

def separated? {α : Type} (element? : Text → Read α) (closing : Char) : Nat → Text → Read (List α)
  | 0, _ => none
  | bound + 1, text =>
    match element? text with
    | some (a, c :: rest) =>
      if c = closing then some ([a], rest)
      else if c = ',' then
        (separated? element? closing bound rest).map fun (others, rest) => (a :: others, rest)
      else none
    | _ => none

def list? {α : Type} (element? : Text → Read α) (closing : Char) (text : Text) : Read (List α) :=
  match skipGap text with
  | [] => none
  | c :: rest =>
    if c = closing then some ([], rest) else separated? element? closing text.length text

def padded? (value? : Text → Read Value) (text : Text) : Read Value :=
  (value? (skipGap text)).map fun (value, rest) => (value, skipGap rest)

def member? (value? : Text → Read Value) (text : Text) : Read (Text × Value) :=
  (past? '"' (skipGap text)).bind fun named =>
    (string? named.length named).bind fun (name, rest) =>
      (past? ':' (skipGap rest)).bind fun rest =>
        (padded? value? rest).map fun (value, rest) => ((name, value), rest)

def value? : Nat → Text → Read Value
  | 0, _ => none
  | _, [] => none
  | depth + 1, c :: rest =>
    if c = '"' then (string? rest.length rest).map fun (text, rest) => (.string text, rest)
    else if c = '[' then
      (list? (padded? (value? depth)) ']' rest).map fun (items, rest) => (.array items, rest)
    else if c = '\x7b' then
      (list? (member? (value? depth)) '\x7d' rest).map fun (members, rest) =>
        (.object members, rest)
    else word? (c :: rest)

def decode (text : Text) : Option Value :=
  match padded? (value? (text.length + 1)) text with
  | some (value, []) => some value
  | _ => none

theorem isWordChar_of_isDigit {c : Char} (digit : c.isDigit = true) : isWordChar c = true := by
  simp [isWordChar, Char.isAlphanum, digit]

theorem not_isWordChar_of_isSpace {c : Char} (space : isSpace c = true) : isWordChar c = false := by
  simp only [isSpace, Bool.or_eq_true, beq_iff_eq] at space
  rcases space with ((rfl | rfl) | rfl) | rfl <;> rfl

theorem IsGap.nil : IsGap [] := fun _ member => nomatch member

theorem IsGap.append {gap gap' : Text} (isGap : IsGap gap) (isGap' : IsGap gap') :
    IsGap (gap ++ gap') :=
  List.forall_mem_append.mpr ⟨isGap, isGap'⟩

theorem skipGap_append {gap rest : Text} (isGap : IsGap gap)
    (behind : ∀ c ∈ rest.head?, isSpace c = false) : skipGap (gap ++ rest) = rest := by
  rw [skipGap, List.dropWhile_append_of_pos isGap]
  cases rest with
  | nil => rfl
  | cons c rest => exact List.dropWhile_cons_of_neg (by simpa using behind c rfl)

theorem head?_gap_append {gap rest : Text} (isGap : IsGap gap)
    (behind : ∀ c ∈ rest.head?, isWordChar c = false) :
    ∀ c ∈ (gap ++ rest).head?, isWordChar c = false := by
  cases gap with
  | nil => exact behind
  | cons space gap =>
    rintro _ ⟨⟩
    exact not_isWordChar_of_isSpace (isGap space List.mem_cons_self)

def IsWord (text : Text) : Prop := ∀ c ∈ text, isWordChar c = true

theorem IsWord.nil : IsWord [] := fun _ member => nomatch member

theorem IsWord.cons {c : Char} {text : Text} (first : isWordChar c = true) (rest : IsWord text) :
    IsWord (c :: text) :=
  List.forall_mem_cons.mpr ⟨first, rest⟩

theorem isWord_of_isDigits {text : Text} (digits : isDigits text = true) : IsWord text := by
  simp only [isDigits, Bool.and_eq_true, List.all_eq_true] at digits
  exact fun c member => isWordChar_of_isDigit (digits.2 c member)

theorem isWord_of_digits_dropWhile {text : Text} (rest : IsWord (text.dropWhile Char.isDigit)) :
    IsWord text := by
  intro c member
  rw [← List.takeWhile_append_dropWhile (p := Char.isDigit) (l := text)] at member
  rcases List.mem_append.mp member with digit | behind
  · exact isWordChar_of_isDigit (List.all_eq_true.mp List.all_takeWhile c digit)
  · exact rest c behind

theorem isWord_of_dropSign {text : Text} (rest : IsWord (dropSign text)) : IsWord text := by
  cases text with
  | nil => exact rest
  | cons c text =>
    rw [dropSign] at rest
    split at rest <;> rename_i sign
    · refine .cons ?_ rest
      simp only [Bool.or_eq_true, beq_iff_eq] at sign
      rcases sign with rfl | rfl <;> rfl
    · exact rest

theorem isWord_of_isExponent {text : Text} (exponent : isExponent text = true) : IsWord text := by
  cases text with
  | nil => exact .nil
  | cons c text =>
    simp only [isExponent, Bool.and_eq_true, Bool.or_eq_true, beq_iff_eq] at exponent
    refine .cons ?_ (isWord_of_dropSign (isWord_of_isDigits exponent.2))
    rcases exponent.1 with rfl | rfl <;> rfl

theorem isWord_of_isFraction {text : Text} (fraction : isFraction text = true) : IsWord text := by
  cases text with
  | nil => exact .nil
  | cons c text =>
    rw [isFraction] at fraction
    split at fraction <;> rename_i point
    · have exponent := (Bool.and_eq_true_iff.mp fraction).2
      refine .cons ?_ (isWord_of_digits_dropWhile (isWord_of_isExponent exponent))
      rw [beq_iff_eq.mp point]
      rfl
    · exact isWord_of_isExponent fraction

theorem isWord_of_isUnsigned {text : Text} (unsigned : isUnsigned text = true) : IsWord text :=
  isWord_of_digits_dropWhile (isWord_of_isFraction (Bool.and_eq_true_iff.mp unsigned).2)

theorem isWord_of_isNumeral {text : Text} (numeral : isNumeral text = true) : IsWord text := by
  cases text with
  | nil => exact .nil
  | cons c text =>
    rw [isNumeral] at numeral
    split at numeral <;> rename_i minus
    · refine .cons ?_ (isWord_of_isUnsigned numeral)
      rw [beq_iff_eq.mp minus]
      rfl
    · exact isWord_of_isUnsigned numeral

theorem isWord_of_mem_namedValues {name : Text} {value : Value}
    (named : (name, value) ∈ namedValues) : IsWord name := by
  have all : ∀ name ∈ namedValues.map Prod.fst, name.all isWordChar = true := by decide +kernel
  exact List.all_eq_true.mp (all name (List.mem_map_of_mem named))

theorem ne_nil_of_isNumeral {numeral : Text} (isNumeral : isNumeral numeral = true) :
    numeral ≠ [] := by
  rintro rfl
  cases isNumeral

theorem ne_nil_of_mem_namedValues {name : Text} {value : Value}
    (named : (name, value) ∈ namedValues) : name ≠ [] := by
  rintro rfl
  simp [namedValues] at named

theorem read_of_mem_namedValues {name : Text} {value : Value}
    (named : (name, value) ∈ namedValues) :
    (if isNumeral name then some (.number name) else namedValues.lookup name) = some value := by
  simp only [namedValues, List.mem_cons, Prod.mk.injEq, List.not_mem_nil, or_false] at named
  rcases named with ⟨rfl, rfl⟩ | ⟨rfl, rfl⟩ | ⟨rfl, rfl⟩ <;> rfl

theorem word?_append {word rest : Text} (isWord : IsWord word)
    (behind : ∀ c ∈ rest.head?, isWordChar c = false) :
    word? (word ++ rest) =
      (if isNumeral word then some (.number word) else namedValues.lookup word).map
        fun value => (value, rest) := by
  have behind' : rest.takeWhile isWordChar = [] ∧ rest.dropWhile isWordChar = rest := by
    cases rest with
    | nil => exact ⟨rfl, rfl⟩
    | cons c rest =>
      have stop : ¬ isWordChar c = true := by simpa using behind c rfl
      exact ⟨List.takeWhile_cons_of_neg stop, List.dropWhile_cons_of_neg stop⟩
  rw [word?, List.takeWhile_append_of_pos isWord, List.dropWhile_append_of_pos isWord, behind'.1,
    behind'.2, List.append_nil]

theorem unit?_append {n : Nat} {digits : Text} (isUnit : IsUnit n digits) (rest : Text) :
    unit? (digits ++ rest) = some (n, rest) := by
  cases isUnit with
  | mk first second third fourth => simp only [List.cons_append, List.nil_append, unit?, *]

theorem char?_append {c : Char} {spelled : Text} (spells : SpellsChar c spelled) (rest : Text) :
    char? (spelled ++ rest) = some (c, rest) := by
  cases spells with
  | plain quote backslash visible =>
    simp [char?, quote, backslash, Nat.not_lt.mpr visible]
  | short escape =>
    have all : ∀ pair ∈ shortEscapes, pair.1 ≠ 'u' ∧ shortEscapes.lookup pair.1 = some pair.2 := by
      decide
    obtain ⟨short, found⟩ := all _ escape
    simp [char?, short, found]
  | unit isUnit high low => simp [char?, unitChar?, unit?_append isUnit, high, low]
  | pair isHigh high isLow low =>
    simp [char?, unitChar?, unit?_append isHigh, high, low?, past?, unit?_append isLow,
      Option.filter, low]

theorem SpellsChar.head?_ne_quote {c : Char} {spelled : Text} (spells : SpellsChar c spelled)
    (rest : Text) : (spelled ++ rest).head? ≠ some '"' := by
  cases spells with
  | plain quote => simpa using quote
  | short | unit | pair => simp

theorem SpellsChar.length_pos {c : Char} {spelled : Text} (spells : SpellsChar c spelled) :
    0 < spelled.length := by
  cases spells <;> simp

theorem exists_succ_of_lt {m n : Nat} (lt : m < n) : ∃ k, n = k + 1 ∧ m ≤ k :=
  ⟨n - 1, by omega, by omega⟩

theorem string?_append {text body : Text} (spells : SpellsString text body) {bound : Nat}
    (enough : body.length < bound) (rest : Text) :
    string? bound (body ++ '"' :: rest) = some (text, rest) := by
  induction spells generalizing bound with
  | nil =>
    obtain ⟨bound, rfl, -⟩ := exists_succ_of_lt enough
    simp [string?]
  | @cons c spelled text body first _ ih =>
    obtain ⟨bound, rfl, enough⟩ := exists_succ_of_lt enough
    have shorter : body.length < bound := by
      have := first.length_pos
      rw [List.length_append] at enough
      omega
    rw [List.append_assoc, string?, if_neg (first.head?_ne_quote _), char?_append first]
    simp only [Option.bind_some, ih shorter, Option.map_some]

def opensValue (c : Char) : Bool := c == '"' || c == '[' || c == '\x7b' || isWordChar c

theorem not_isSpace_of_opensValue {c : Char} (first : opensValue c = true) : isSpace c = false := by
  refine Bool.eq_false_iff.mpr fun space => ?_
  simp only [isSpace, Bool.or_eq_true, beq_iff_eq] at space
  rcases space with ((rfl | rfl) | rfl) | rfl <;> cases first

def Opens (text : Text) : Prop :=
  ∃ gap c rest, text = gap ++ c :: rest ∧ IsGap gap ∧ opensValue c = true

theorem Opens.append {text : Text} (opens : Opens text) (rest : Text) : Opens (text ++ rest) := by
  obtain ⟨gap, c, behind, rfl, isGap, first⟩ := opens
  exact ⟨gap, c, behind ++ rest, by simp, isGap, first⟩

theorem exists_cons_of_isWord {text : Text} (isWord : IsWord text) (nonempty : text ≠ []) :
    ∃ c rest, text = c :: rest ∧ isWordChar c = true := by
  obtain ⟨c, rest, rfl⟩ := List.exists_cons_of_ne_nil nonempty
  exact ⟨c, rest, rfl, isWord c List.mem_cons_self⟩

namespace Spells

theorem exists_cons {value : Value} {text : Text} (spells : Spells (.value value) text) :
    ∃ c rest, text = c :: rest ∧ opensValue c = true := by
  cases spells with
  | named named =>
    obtain ⟨c, rest, eq, first⟩ := exists_cons_of_isWord (isWord_of_mem_namedValues named)
      (ne_nil_of_mem_namedValues named)
    exact ⟨c, rest, eq, by simp [opensValue, first]⟩
  | number numeral =>
    obtain ⟨c, rest, eq, first⟩ := exists_cons_of_isWord (isWord_of_isNumeral numeral)
      (ne_nil_of_isNumeral numeral)
    exact ⟨c, rest, eq, by simp [opensValue, first]⟩
  | string | emptyArray | array | emptyObject | object => exact ⟨_, _, rfl, rfl⟩

theorem opens_padded {value : Value} {text : Text} (spells : Spells (.padded value) text) :
    Opens text := by
  cases spells with
  | padded isGap spells =>
    obtain ⟨c, rest, rfl, first⟩ := spells.exists_cons
    exact ⟨_, c, _, rfl, isGap, first⟩

theorem opens_items {items : List Value} {text : Text} (spells : Spells (.items items) text) :
    Opens text := by
  cases spells with
  | lastItem item => exact item.opens_padded
  | item item => exact item.opens_padded.append _

theorem opens_member {member : Text × Value} {text : Text} (spells : Spells (.member member) text) :
    Opens text := by
  cases spells with
  | member isGap => exact ⟨_, '"', _, rfl, isGap, rfl⟩

theorem opens_members {members : List (Text × Value)} {text : Text}
    (spells : Spells (.members members) text) : Opens text := by
  cases spells with
  | lastMember member => exact member.opens_member
  | members member => exact member.opens_member.append _

end Spells

/-- The reader takes `a` from the text and leaves what follows, unless this goes on with spaces or
with a word. -/
def Takes {α : Type} (read : Text → Read α) (a : α) (text : Text) : Prop :=
  ∀ rest : Text, (∀ c ∈ rest.head?, isSpace c = false ∧ isWordChar c = false) →
    read (text ++ rest) = some (a, rest)

def TakesAll {α : Type} (element? : Text → Read α) (closing : Char) (elements : List α)
    (text : Text) : Prop :=
  ∀ bound rest, text.length < bound →
    separated? element? closing bound (text ++ closing :: rest) = some (elements, rest)

section

variable {α : Type} {element? : Text → Read α} {closing : Char} {text : Text} {a : α}

theorem TakesAll.last (takes : Takes element? a text) (noSpace : isSpace closing = false)
    (noWord : isWordChar closing = false) : TakesAll element? closing [a] text := by
  intro bound rest enough
  obtain ⟨bound, rfl, -⟩ := exists_succ_of_lt enough
  rw [separated?, takes (closing :: rest) (by simp [noSpace, noWord])]
  exact if_pos rfl

theorem TakesAll.cons {others : List α} {texts : Text} (takes : Takes element? a text)
    (more : TakesAll element? closing others texts) (noComma : closing ≠ ',') :
    TakesAll element? closing (a :: others) (text ++ ',' :: texts) := by
  intro bound rest enough
  obtain ⟨bound, rfl, enough⟩ := exists_succ_of_lt enough
  simp only [List.length_append, List.length_cons] at enough
  have read := more bound rest (by omega)
  rw [List.append_assoc, List.cons_append, separated?, takes _ (by rintro _ ⟨⟩; exact ⟨rfl, rfl⟩)]
  simp [noComma.symm, read]

theorem list?_nil {gap : Text} (isGap : IsGap gap) (noSpace : isSpace closing = false)
    (rest : Text) : list? element? closing (gap ++ closing :: rest) = some ([], rest) := by
  rw [list?, skipGap_append isGap (by simpa using noSpace)]
  exact if_pos rfl

theorem list?_append {elements : List α} (opens : Opens text)
    (takes : TakesAll element? closing elements text) (other : opensValue closing = false)
    (rest : Text) : list? element? closing (text ++ closing :: rest) = some (elements, rest) := by
  have read := takes (text ++ closing :: rest).length rest (by simp)
  obtain ⟨gap, c, behind, eq, isGap, first⟩ := opens.append (closing :: rest)
  have noSpace := not_isSpace_of_opensValue first
  have ne : c ≠ closing := by
    rintro rfl
    simp [first] at other
  rw [eq] at read ⊢
  rw [list?, skipGap_append isGap (by simpa using noSpace)]
  exact (if_neg ne).trans read

end

def IsRead (text : Text) : Part → Prop
  | .value value => ∀ depth (rest : Text), text.length < depth →
      (∀ c ∈ rest.head?, isWordChar c = false) → value? depth (text ++ rest) = some (value, rest)
  | .padded value => ∀ depth, text.length < depth → Takes (padded? (value? depth)) value text
  | .member member => ∀ depth, text.length < depth → Takes (member? (value? depth)) member text
  | .items items => ∀ depth, text.length < depth →
      TakesAll (padded? (value? depth)) ']' items text
  | .members members => ∀ depth, text.length < depth →
      TakesAll (member? (value? depth)) '\x7d' members text

theorem value?_word {word : Text} {value : Value} (isWord : IsWord word) (nonempty : word ≠ [])
    (reads : (if isNumeral word then some (.number word) else namedValues.lookup word) = some value)
    (depth : Nat) {rest : Text} (behind : ∀ c ∈ rest.head?, isWordChar c = false) :
    value? (depth + 1) (word ++ rest) = some (value, rest) := by
  obtain ⟨c, text, rfl, first⟩ := exists_cons_of_isWord isWord nonempty
  have other : c ≠ '"' ∧ c ≠ '[' ∧ c ≠ '\x7b' := by
    refine ⟨?_, ?_, ?_⟩ <;> rintro rfl <;> cases first
  have read := word?_append isWord behind
  rw [reads] at read
  rw [List.cons_append] at read ⊢
  simpa [value?, other] using read

theorem value?_string (depth : Nat) (rest : Text) :
    value? (depth + 1) ('"' :: rest) =
      (string? rest.length rest).map fun (text, rest) => (.string text, rest) := rfl

theorem value?_array (depth : Nat) (rest : Text) :
    value? (depth + 1) ('[' :: rest) =
      (list? (padded? (value? depth)) ']' rest).map fun (items, rest) => (.array items, rest) := rfl

theorem value?_object (depth : Nat) (rest : Text) :
    value? (depth + 1) ('\x7b' :: rest) =
      (list? (member? (value? depth)) '\x7d' rest).map fun (members, rest) =>
        (.object members, rest) := rfl

theorem takes_padded {read : Text → Read Value} {value : Value} {before text behind : Text}
    (gap : IsGap before) (gap' : IsGap behind)
    (opens : ∃ c rest, text = c :: rest ∧ opensValue c = true)
    (reads : ∀ rest : Text, (∀ c ∈ rest.head?, isWordChar c = false) →
      read (text ++ rest) = some (value, rest)) :
    Takes (padded? read) value (before ++ (text ++ behind)) := by
  intro rest stop
  have start : skipGap (before ++ (text ++ (behind ++ rest))) = text ++ (behind ++ rest) := by
    obtain ⟨c, _, rfl, first⟩ := opens
    exact skipGap_append gap (by simpa using not_isSpace_of_opensValue first)
  have finish : skipGap (behind ++ rest) = rest :=
    skipGap_append gap' fun c head => (stop c head).1
  have found := reads (behind ++ rest) (head?_gap_append gap' fun c head => (stop c head).2)
  rw [List.append_assoc, List.append_assoc, padded?, start, found]
  simp only [Option.map_some, finish]

theorem takes_member {read : Text → Read Value} {name : Text} {value : Value}
    {before body behind text : Text} (gap : IsGap before) (spells : SpellsString name body)
    (gap' : IsGap behind) (takes : Takes (padded? read) value text) :
    Takes (member? read) (name, value)
      (before ++ '"' :: (body ++ '"' :: (behind ++ ':' :: text))) := by
  intro rest stop
  let tail := behind ++ ':' :: (text ++ rest)
  have shape : before ++ '"' :: (body ++ '"' :: (behind ++ ':' :: text)) ++ rest =
      before ++ '"' :: (body ++ '"' :: tail) := by simp [tail]
  have start : skipGap (before ++ '"' :: (body ++ '"' :: tail)) = '"' :: (body ++ '"' :: tail) :=
    skipGap_append gap (by rintro _ ⟨⟩; rfl)
  have named : string? (body ++ '"' :: tail).length (body ++ '"' :: tail) = some (name, tail) :=
    string?_append spells (by simp) tail
  have colon : skipGap tail = ':' :: (text ++ rest) := skipGap_append gap' (by rintro _ ⟨⟩; rfl)
  rw [shape, member?, start]
  simp only [past?, ↓reduceIte, Option.bind_some, named, colon, takes rest stop, Option.map_some]

theorem Spells.isRead {part : Part} {text : Text} (spells : Spells part text) :
    IsRead text part := by
  induction spells with
  | named named =>
    intro depth rest enough behind
    obtain ⟨depth, rfl, -⟩ := exists_succ_of_lt enough
    exact value?_word (isWord_of_mem_namedValues named) (ne_nil_of_mem_namedValues named)
      (read_of_mem_namedValues named) depth behind
  | number numeral =>
    intro depth rest enough behind
    obtain ⟨depth, rfl, -⟩ := exists_succ_of_lt enough
    exact value?_word (isWord_of_isNumeral numeral) (ne_nil_of_isNumeral numeral)
      (if_pos numeral) depth behind
  | @string text body spells =>
    intro depth rest enough _
    obtain ⟨depth, rfl, -⟩ := exists_succ_of_lt enough
    have bound : body.length < (body ++ '"' :: rest).length := by simp
    rw [List.cons_append, List.append_assoc, value?_string]
    exact congrArg _ (string?_append spells bound rest)
  | emptyArray isGap =>
    intro depth rest enough _
    obtain ⟨depth, rfl, -⟩ := exists_succ_of_lt enough
    rw [List.cons_append, List.append_assoc, value?_array]
    exact congrArg _ (list?_nil isGap rfl rest)
  | array spells ih =>
    intro depth rest enough _
    obtain ⟨depth, rfl, enough⟩ := exists_succ_of_lt enough
    have takes := ih depth (by simp at enough; omega)
    rw [List.cons_append, List.append_assoc, value?_array]
    exact congrArg _ (list?_append spells.opens_items takes rfl rest)
  | emptyObject isGap =>
    intro depth rest enough _
    obtain ⟨depth, rfl, -⟩ := exists_succ_of_lt enough
    rw [List.cons_append, List.append_assoc, value?_object]
    exact congrArg _ (list?_nil isGap rfl rest)
  | object spells ih =>
    intro depth rest enough _
    obtain ⟨depth, rfl, enough⟩ := exists_succ_of_lt enough
    have takes := ih depth (by simp at enough; omega)
    rw [List.cons_append, List.append_assoc, value?_object]
    exact congrArg _ (list?_append spells.opens_members takes rfl rest)
  | padded gap spells gap' ih =>
    intro depth enough
    exact takes_padded gap gap' spells.exists_cons fun rest =>
      ih depth rest (by simp at enough; omega)
  | member gap spells gap' _ ih =>
    intro depth enough
    exact takes_member gap spells gap' (ih depth (by simp at enough; omega))
  | lastItem _ ih | lastMember _ ih =>
    intro depth enough
    exact .last (ih depth enough) rfl rfl
  | item _ _ ih ihs | members _ _ ih ihs =>
    intro depth enough
    simp only [List.length_append, List.length_cons] at enough
    exact .cons (ih depth (by omega)) (ihs depth (by omega)) (by decide)

/-- The decoder finds the value of every text that spells one. -/
theorem decode_of_spells {value : Value} {text : Text} (spells : Spells (.padded value) text) :
    decode text = some value := by
  have read := spells.isRead (text.length + 1) (Nat.lt_succ_self _) [] (by simp)
  rw [List.append_nil] at read
  rw [decode, read]

end DocMarkup.Json
