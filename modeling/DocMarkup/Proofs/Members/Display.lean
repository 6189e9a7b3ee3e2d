import DocMarkup.Members.StringList
import DocMarkup.Proofs.Outline.Code

namespace DocMarkup.StringList

inductive IsPadding : Text → Prop where
  | nil : IsPadding []
  | blank {c : Char} {text : Text} : isBlank c = true → IsPadding text → IsPadding (c :: text)
  | comment {note text : Text} :
      '\n' ∉ note → IsPadding text → IsPadding ('#' :: (note ++ '\n' :: text))

def escaped (quote : Char) (text : Text) : Text :=
  text.flatMap fun c => if c = '\\' ∨ c = quote then ['\\', c] else [c]

def quoted (quote : Char) (item : Text) : Text := quote :: (escaped quote item ++ [quote])

/-- The text is a literal for `item`, with padding around it. -/
inductive IsElement (item : Text) : Text → Prop where
  | mk {quote : Char} {before behind : Text} : isQuote quote = true → '\n' ∉ item →
      IsPadding before → IsPadding behind → IsElement item (before ++ quoted quote item ++ behind)

/-- The text lists the items: elements with commas between them, and perhaps a last comma. -/
inductive Lists : List Text → Text → Prop where
  | nothing {text : Text} : IsPadding text → Lists [] text
  | last {item text : Text} : IsElement item text → Lists [item] text
  | more {item text rest : Text} {items : List Text} :
      IsElement item text → Lists items rest → Lists (item :: items) (text ++ ',' :: rest)

def bracketPairs : List (Char × Char) := [('[', ']'), ('(', ')'), ('\x7b', '\x7d')]

def IsDisplay (items : List Text) (text : Text) : Prop :=
  ∃ pair ∈ bracketPairs, ∃ body, Lists items body ∧ text = pair.1 :: (body ++ [pair.2])

theorem opensBracket_of_mem {pair : Char × Char} (member : pair ∈ bracketPairs) :
    opensBracket pair.1 = true ∧ closesBracket pair.2 = true := by
  simp only [bracketPairs, List.mem_cons, List.not_mem_nil, or_false] at member
  rcases member with rfl | rfl | rfl <;> exact ⟨rfl, rfl⟩

theorem isInert_comma : IsInert ',' := by
  constructor <;> rfl

theorem head?_padding_append {padding rest : Text} (isPadding : IsPadding padding)
    (first : ∀ c ∈ rest.head?, isQuote c = false) :
    ∀ c ∈ (padding ++ rest).head?, isQuote c = false := by
  cases isPadding with
  | nil => exact first
  | blank blank _ =>
    rintro _ ⟨⟩
    exact (isInert_of_isBlank blank).quote
  | comment _ _ =>
    rintro _ ⟨⟩
    rfl

theorem escaped_cons (quote c : Char) (text : Text) :
    escaped quote (c :: text) =
      (if c = '\\' ∨ c = quote then ['\\', c] else [c]) ++ escaped quote text := rfl

theorem feed_not_mem_escaped {quote : Char} {text : Text} (inside : '\n' ∉ text) :
    '\n' ∉ escaped quote text := by
  intro member
  obtain ⟨c, original, part⟩ := List.mem_flatMap.mp member
  split at part
  · rcases List.mem_cons.mp part with absurd | same
    · cases absurd
    · exact inside (List.mem_singleton.mp same ▸ original)
  · exact inside (List.mem_singleton.mp part ▸ original)

theorem onLine_quoted {quote : Char} (quotes : isQuote quote = true) {item : Text}
    (inside : '\n' ∉ item) (rest : Text) : Text.OnLine (quoted quote item) rest := by
  have notFeed : quote ≠ '\n' := by
    rintro rfl
    cases quotes
  constructor
  · intro member
    rcases List.mem_cons.mp member with same | member
    · exact notFeed same.symm
    · rcases List.mem_append.mp member with member | same
      · exact feed_not_mem_escaped inside member
      · exact notFeed (List.mem_singleton.mp same).symm
  · intro last
    have ends : (quoted quote item).getLast? = some quote := by
      rw [quoted, ← List.cons_append]
      exact List.getLast?_concat
    rw [ends] at last
    cases last
    cases quotes

theorem itemsFrom_inert {c : Char} (inert : IsInert c) (depth : Nat) (rest : Text) :
    itemsFrom .code depth (c :: rest) = itemsFrom .code depth rest := by
  simp only [itemsFrom, inert.opens, inert.closes, inert.hash, inert.quote, Bool.false_eq_true,
    if_false]

theorem itemsFrom_literal {c : Char} (plain : c ≠ '\\') (quote : Char) (begun : Text) (depth : Nat)
    (rest : Text) :
    itemsFrom (.quoted quote begun) depth (c :: rest) =
      if c == quote then (itemsFrom .code depth rest).map (begun :: ·)
      else itemsFrom (.quoted quote (begun ++ [c])) depth rest := by
  rw [itemsFrom.eq_def]
  simp only [beq_iff_eq, plain, if_false]

theorem itemsFrom_escaped {quote : Char} (item : Text) (begun : Text) (depth : Nat) (rest : Text)
    (quotes : isQuote quote = true) :
    itemsFrom (.quoted quote begun) depth (escaped quote item ++ quote :: rest) =
      (itemsFrom .code depth rest).map ((begun ++ item) :: ·) := by
  have plain : quote ≠ '\\' := by
    rintro rfl
    cases quotes
  induction item generalizing begun with
  | nil =>
    rw [List.append_nil]
    show itemsFrom _ depth (quote :: rest) = _
    rw [itemsFrom_literal plain, if_pos (beq_self_eq_true quote)]
  | cons c item ih =>
    have next := ih (begun ++ [c])
    rw [List.append_assoc, List.singleton_append] at next
    rw [escaped_cons]
    by_cases marked : c = '\\' ∨ c = quote
    · rw [if_pos marked]
      simp only [List.cons_append, List.nil_append, itemsFrom, beq_self_eq_true, if_true]
      exact next
    · rw [if_neg marked]
      rw [not_or] at marked
      rw [List.singleton_append, List.cons_append, itemsFrom_literal marked.1,
        if_neg (by simpa using marked.2)]
      exact next

theorem itemsFrom_quoted {quote : Char} (quotes : isQuote quote = true) (item : Text) (depth : Nat)
    (rest : Text) :
    itemsFrom .code depth (quoted quote item ++ rest) =
      (itemsFrom .code depth rest).map (item :: ·) := by
  have whole := itemsFrom_escaped item [] depth rest quotes
  have code : itemsFrom .code depth (quote :: (escaped quote item ++ quote :: rest)) =
      itemsFrom (.quoted quote []) depth (escaped quote item ++ quote :: rest) := by
    rcases isQuote_cases quotes with rfl | rfl <;> rfl
  rw [quoted, List.cons_append, List.append_assoc]
  exact code.trans whole

def itemsBehind (depth : Nat) (rest : Text) : Option (List Text) :=
  itemsFrom .code depth rest.rejoin

theorem itemsFrom_comment {note rest : Text} (inside : '\n' ∉ note) (more : rest ≠ [])
    (depth : Nat) :
    itemsFrom .comment depth (Text.rejoin (note ++ '\n' :: rest)) = itemsBehind depth rest := by
  -- A carriage return at the end of the note gets lost with the line break, and so does not matter.
  induction note with
  | nil =>
    rw [List.nil_append, Text.rejoin_feed more]
    rfl
  | cons c note ih =>
    rw [List.mem_cons, not_or] at inside
    rw [List.cons_append]
    by_cases returns : c = '\r' ∧ (note ++ '\n' :: rest).head? = some '\n'
    · rw [returns.1, Text.rejoin_return returns.2]
      exact ih inside.2
    · have other : (c == '\n') = false := beq_eq_false_iff_ne.mpr (Ne.symm inside.1)
      rw [Text.rejoin_cons (Ne.symm inside.1) fun same first => returns ⟨same, first⟩]
      simp only [itemsFrom, other, Bool.false_eq_true, if_false]
      exact ih inside.2

theorem itemsBehind_blank {c : Char} (blank : isBlank c = true) {rest : Text} (more : rest ≠ [])
    (depth : Nat) : itemsBehind depth (c :: rest) = itemsBehind depth rest := by
  have inert := isInert_of_isBlank blank
  unfold itemsBehind
  by_cases feed : c = '\n'
  · subst feed
    rw [Text.rejoin_feed more, itemsFrom_inert inert]
  · by_cases returns : c = '\r' ∧ rest.head? = some '\n'
    · rw [returns.1, Text.rejoin_return returns.2]
    · rw [Text.rejoin_cons feed fun same first => returns ⟨same, first⟩, itemsFrom_inert inert]

theorem itemsBehind_padding {padding : Text} (isPadding : IsPadding padding) {rest : Text}
    (more : rest ≠ []) (depth : Nat) :
    itemsBehind depth (padding ++ rest) = itemsBehind depth rest := by
  induction isPadding with
  | nil => rfl
  | @blank c text blank _ ih =>
    have more' := List.append_ne_nil_of_right_ne_nil text more
    rw [List.cons_append, itemsBehind_blank blank more', ih]
  | @comment note text inside _ ih =>
    have hash : itemsBehind depth ('#' :: (note ++ '\n' :: (text ++ rest))) =
        itemsFrom .comment depth (Text.rejoin (note ++ '\n' :: (text ++ rest))) := by
      unfold itemsBehind
      rw [Text.rejoin_cons (by decide) fun same => absurd same (by decide)]
      rfl
    rw [List.cons_append, List.append_assoc, List.cons_append, hash,
      itemsFrom_comment inside (List.append_ne_nil_of_right_ne_nil text more), ih]

theorem itemsBehind_element {item text : Text} (element : IsElement item text) {rest : Text}
    (more : rest ≠ []) (depth : Nat) :
    itemsBehind depth (text ++ rest) = (itemsBehind depth rest).map (item :: ·) := by
  obtain @⟨quote, _, _, quotes, inside, before, behind⟩ := element
  have onLine := onLine_quoted quotes inside
  have literal (tail : Text) : quoted quote item ++ tail ≠ [] := List.cons_ne_nil _ _
  rw [List.append_assoc, List.append_assoc, itemsBehind_padding before (literal _),
    itemsBehind, Text.rejoin_append (onLine _), itemsFrom_quoted quotes]
  exact congrArg _ (itemsBehind_padding behind more depth)

theorem itemsBehind_cons {c : Char} {rest : Text} (feed : c ≠ '\n') (returns : c ≠ '\r')
    (depth : Nat) : itemsBehind depth (c :: rest) = itemsFrom .code depth (c :: rest.rejoin) := by
  rw [itemsBehind, Text.rejoin_cons feed fun same => absurd same returns]

theorem itemsBehind_lists {items : List Text} {text : Text} (lists : Lists items text)
    {closing : Char} (closes : closesBracket closing = true) (rest : Text) :
    itemsBehind 0 (text ++ closing :: rest) = some items := by
  have ends : itemsBehind 0 (closing :: rest) = some [] := by
    have inside := ne_break_of_bracket (Or.inr closes)
    rw [itemsBehind_cons inside.1 inside.2]
    rcases closesBracket_cases closes with rfl | rfl | rfl <;> rfl
  induction lists with
  | nothing isPadding => rw [itemsBehind_padding isPadding (List.cons_ne_nil _ _), ends]
  | last element =>
    rw [itemsBehind_element element (List.cons_ne_nil _ _), ends]
    rfl
  | more element _ ih =>
    rw [List.append_assoc, List.cons_append, itemsBehind_element element (List.cons_ne_nil _ _),
      itemsBehind_cons (by decide) (by decide), itemsFrom_inert isInert_comma]
    exact congrArg _ ih

theorem items?_opening {opening : Char} (opens : opensBracket opening = true) (rest : Text) :
    items? (' ' :: opening :: rest) = itemsFrom .code 0 rest := by
  rcases opensBracket_cases opens with rfl | rfl | rfl <;> rfl

theorem items?_display {items : List Text} {display : Text} (isDisplay : IsDisplay items display)
    (rest : Text) : items? (Text.rejoin (' ' :: (display ++ rest))) = some items := by
  obtain ⟨pair, member, body, lists, rfl⟩ := isDisplay
  obtain ⟨opens, closes⟩ := opensBracket_of_mem member
  have inside := ne_break_of_bracket (Or.inl opens)
  rw [List.cons_append, List.append_assoc, List.singleton_append,
    Text.rejoin_cons (by decide) fun same => absurd same (by decide),
    Text.rejoin_cons inside.1 fun same => absurd same inside.2, items?_opening opens]
  exact itemsBehind_lists lists closes rest

end DocMarkup.StringList
