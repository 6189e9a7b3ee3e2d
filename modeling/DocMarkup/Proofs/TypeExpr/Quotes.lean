import DocMarkup.Proofs.Field.Reference
import DocMarkup.Proofs.TypeExpr.Recovery

namespace DocMarkup

namespace Text

def quotesFrom : Option Text → Text → List Text
  | _, [] => []
  | none, c :: rest => if c = backtick then quotesFrom (some []) rest else quotesFrom none rest
  | some opened, c :: rest =>
    if c = backtick then opened :: quotesFrom none rest else quotesFrom (some (opened ++ [c])) rest

def quotes (text : Text) : List Text := quotesFrom none text

/-- The backticks of the text pair up among themselves, with `inner` between them. -/
def Encloses (text : Text) (inner : List Text) : Prop :=
  ∀ rest, quotesFrom none (text ++ rest) = inner ++ quotesFrom none rest

theorem Encloses.quotes {text : Text} {inner : List Text} (encloses : text.Encloses inner) :
    text.quotes = inner := by
  have whole := encloses []
  rwa [List.append_nil, quotesFrom, List.append_nil] at whole

theorem Encloses.append {text text' : Text} {inner inner' : List Text}
    (encloses : text.Encloses inner) (encloses' : text'.Encloses inner') :
    (text ++ text').Encloses (inner ++ inner') := by
  intro rest
  rw [List.append_assoc, encloses, encloses', List.append_assoc]

theorem encloses_of_plain {text : Text} (plain : backtick ∉ text) : text.Encloses [] := by
  intro rest
  induction text with
  | nil => rfl
  | cons c text ih =>
    obtain ⟨first, others⟩ := not_or.mp (fun member => plain (List.mem_cons.mpr member))
    rw [List.cons_append, quotesFrom, if_neg (Ne.symm first), ih others]

theorem quotesFrom_opened {inner : Text} (plain : backtick ∉ inner) (opened rest : Text) :
    quotesFrom (some opened) (inner ++ backtick :: rest) =
      (opened ++ inner) :: quotesFrom none rest := by
  induction inner generalizing opened with
  | nil => rw [List.nil_append, quotesFrom, if_pos rfl, List.append_nil]
  | cons c inner ih =>
    obtain ⟨first, others⟩ := not_or.mp (fun member => plain (List.mem_cons.mpr member))
    rw [List.cons_append, quotesFrom, if_neg (Ne.symm first), ih others, List.append_assoc,
      List.singleton_append]

theorem encloses_quoted {inner : Text} (plain : backtick ∉ inner) :
    Encloses (backtick :: inner ++ [backtick]) [inner] := by
  intro rest
  rw [List.append_assoc, List.cons_append, quotesFrom, if_pos rfl, List.singleton_append,
    quotesFrom_opened plain, List.nil_append, List.singleton_append]

theorem encloses_joinWith {separator : Text} (plain : backtick ∉ separator) {write : Text → Text}
    {inner : Text → List Text} {texts : List Text}
    (encloses : ∀ text ∈ texts, (write text).Encloses (inner text)) :
    (joinWith separator (texts.map write)).Encloses (texts.flatMap inner) := by
  induction texts with
  | nil => exact encloses_of_plain List.not_mem_nil
  | cons text texts ih =>
    obtain ⟨first, others⟩ := List.forall_mem_cons.mp encloses
    cases texts with
    | nil => simpa [joinWith] using first
    | cons next texts =>
      have behind := (encloses_of_plain plain).append (ih others)
      rw [List.map_cons, joinWith, List.map_cons, List.intercalate_cons_cons, List.append_assoc]
      exact first.append behind

end Text

namespace TypeMarkup

open Text

/-- A complete reference: a role or none, and a target between backticks. -/
def IsReference (token : Text) : Prop := ∃ target ∈ FieldList.target? token, backtick ∉ target

instance (token : Text) : Decidable (IsReference token) :=
  inferInstanceAs (Decidable (∃ target ∈ FieldList.target? token, backtick ∉ target))

theorem not_mem_takeWhile_isRoleChar (text : Text) : backtick ∉ text.takeWhile isRoleChar := by
  intro member
  have passed := List.all_eq_true.mp List.all_takeWhile backtick member
  exact absurd passed (by decide)

theorem IsReference.exists_target {token : Text} (isReference : IsReference token) :
    ∃ target, backtick ∉ target ∧
      token = token.takeWhile isRoleChar ++ (backtick :: target ++ [backtick]) := by
  obtain ⟨target, found, plain⟩ := isReference
  obtain ⟨role, isRole, rfl, -⟩ := FieldList.target?_eq_some_iff.mp found
  exact ⟨target, plain, by rw [List.cons_append, takeWhile_role_append isRole]⟩

theorem IsReference.mem_backtick {token : Text} (isReference : IsReference token) :
    backtick ∈ token := by
  obtain ⟨target, -, parts⟩ := isReference.exists_target
  rw [parts]
  exact List.mem_append_right _ List.mem_cons_self

/-- The texts between backticks in what a token is written as: the token itself, or its role and
nothing if it is a reference already. -/
def quotesOf (typeMarkup : TypeMarkup) (token : Text) : List Text :=
  if connectors.contains token || (typeMarkup.aliases.lookup token).isSome then []
  else if token.contains backtick then [token.takeWhile isRoleChar, []]
  else [token]

theorem eq_of_mem_quotesOf {typeMarkup : TypeMarkup} {token quote : Text}
    (plain : backtick ∉ token) (member : quote ∈ typeMarkup.quotesOf token) : quote = token := by
  have unquoted : ¬ token.contains backtick = true := by simpa using plain
  by_cases known : (connectors.contains token || (typeMarkup.aliases.lookup token).isSome) = true
  · rw [quotesOf, if_pos known] at member
    exact absurd member List.not_mem_nil
  · rw [quotesOf, if_neg known, if_neg unquoted] at member
    exact List.mem_singleton.mp member

theorem not_mem_connector {word : Text} (member : word ∈ connectors) : backtick ∉ word := by
  have plain : ∀ word ∈ connectors, backtick ∉ word := by decide
  exact plain word member

theorem reference_eq (role target : Text) :
    reference role target = role ++ (backtick :: target ++ [backtick]) := by
  have mark : ("`" : Text) = [backtick] := rfl
  rw [reference, mark, List.append_assoc, List.append_assoc, List.singleton_append,
    List.cons_append]

theorem encloses_reference {role token : Text} (plainRole : backtick ∉ role)
    (complete : backtick ∈ token → IsReference token) :
    (reference role token).Encloses
      (if token.contains backtick then [token.takeWhile isRoleChar, []] else [token]) := by
  have front := encloses_of_plain plainRole
  rw [reference_eq]
  by_cases quoted : backtick ∈ token
  · rw [if_pos (List.contains_iff_mem.mpr quoted)]
    obtain ⟨target, plain, parts⟩ := (complete quoted).exists_target
    have inner := not_mem_takeWhile_isRoleChar token
    generalize token.takeWhile isRoleChar = named at parts inner ⊢
    have empty : Encloses [backtick, backtick] [[]] := encloses_quoted List.not_mem_nil
    -- The opening backtick is closed in front of the target, and the closing ones pair up.
    have written : role ++ (backtick :: token ++ [backtick]) =
        role ++ ((backtick :: named ++ [backtick]) ++ (target ++ [backtick, backtick])) := by
      rw [parts]
      simp
    rw [written]
    exact front.append ((encloses_quoted inner).append ((encloses_of_plain plain).append empty))
  · rw [if_neg (by simpa using quoted)]
    exact front.append (encloses_quoted quoted)

section Aliases

variable {typeMarkup : TypeMarkup}
  (plainAliases : ∀ pair ∈ typeMarkup.aliases, backtick ∉ pair.1 ∧ backtick ∉ pair.2)

include plainAliases

theorem plain_of_lookup {token markup : Text}
    (found : typeMarkup.aliases.lookup token = some markup) :
    backtick ∉ token ∧ backtick ∉ markup := by
  obtain ⟨before, after, same, -⟩ := List.lookup_eq_some_iff.mp found
  exact plainAliases (token, markup) (same ▸ List.mem_append_right _ List.mem_cons_self)

theorem unknown_of_quoted {token : Text} (quoted : backtick ∈ token) :
    connectors.contains token = false ∧ typeMarkup.aliases.lookup token = none := by
  constructor
  · rw [Bool.eq_false_iff]
    intro connector
    exact not_mem_connector (List.contains_iff_mem.mp connector) quoted
  · cases found : typeMarkup.aliases.lookup token with
    | none => rfl
    | some markup => exact absurd quoted (plain_of_lookup plainAliases found).1

theorem resolve_of_isReference {token : Text} (isReference : IsReference token) :
    typeMarkup.resolve token = reference typeMarkup.roles.classRole token := by
  have quoted := isReference.mem_backtick
  obtain ⟨word, unknown⟩ := unknown_of_quoted plainAliases quoted
  have named : token ≠ "None" := by
    rintro rfl
    exact absurd quoted (by decide)
  rw [resolve, word, if_neg Bool.false_ne_true, unknown]
  exact if_neg named

theorem quotesOf_of_isReference {token : Text} (isReference : IsReference token) :
    typeMarkup.quotesOf token = [token.takeWhile isRoleChar, []] := by
  have quoted := isReference.mem_backtick
  obtain ⟨word, unknown⟩ := unknown_of_quoted plainAliases quoted
  rw [quotesOf, word, unknown, Option.isSome_none, Bool.or_false, if_neg Bool.false_ne_true,
    if_pos (List.contains_iff_mem.mpr quoted)]

theorem encloses_resolve {token : Text} (complete : backtick ∈ token → IsReference token) :
    (typeMarkup.resolve token).Encloses (typeMarkup.quotesOf token) := by
  have plainRoles : backtick ∉ typeMarkup.roles.classRole ∧
      backtick ∉ typeMarkup.roles.objectRole := by
    cases typeMarkup.roles <;> decide
  unfold resolve quotesOf
  by_cases connector : connectors.contains token = true
  · rw [if_pos connector, connector, Bool.true_or, if_pos rfl]
    exact encloses_of_plain (not_mem_connector (List.contains_iff_mem.mp connector))
  · rw [if_neg connector, Bool.eq_false_iff.mpr connector, Bool.false_or]
    cases found : typeMarkup.aliases.lookup token with
    | some markup => exact encloses_of_plain (plain_of_lookup plainAliases found).2
    | none =>
      dsimp only
      rw [Option.isSome_none, if_neg Bool.false_ne_true]
      split
      · exact encloses_reference plainRoles.2 complete
      · exact encloses_reference plainRoles.1 complete

end Aliases

theorem not_mem_suffixText {suffixes : List Text} (plain : ∀ suffix ∈ suffixes, backtick ∉ suffix) :
    backtick ∉ suffixText suffixes := by
  intro member
  obtain ⟨suffix, inside, found⟩ := List.mem_flatMap.mp member
  simp only [emphasizedSuffix, List.mem_append] at found
  rcases found with (front | within) | back
  · exact absurd front (by decide)
  · exact plain suffix inside within
  · exact absurd back (by decide)

/-- The references of an expression come out wrapped once more. Only without them does every pair of
backticks hold a target. -/
theorem quotes_render {typeMarkup : TypeMarkup} {expr : Text}
    (plainAliases : ∀ pair ∈ typeMarkup.aliases, backtick ∉ pair.1 ∧ backtick ∉ pair.2)
    (complete : ∀ token ∈ TypeExpr.tokens expr, backtick ∈ token → IsReference token)
    (plainSuffixes : ∀ suffix ∈ TypeExpr.suffixes expr, backtick ∉ suffix) :
    (typeMarkup.render expr).quotes = (TypeExpr.tokens expr).flatMap typeMarkup.quotesOf ∧
      (∀ token ∈ TypeExpr.tokens expr, IsReference token →
        typeMarkup.resolve token = reference typeMarkup.roles.classRole token) ∧
      ((∀ quote ∈ (typeMarkup.render expr).quotes, quote ≠ []) ↔
        ∀ token ∈ TypeExpr.tokens expr, ¬ IsReference token) := by
  have written : (typeMarkup.render expr).quotes =
      (TypeExpr.tokens expr).flatMap typeMarkup.quotesOf := by
    have space : backtick ∉ (" " : Text) := by decide
    have references := encloses_joinWith space fun token member =>
      encloses_resolve plainAliases (complete token member)
    have behind := encloses_of_plain (not_mem_suffixText plainSuffixes)
    rw [render_eq, (references.append behind).quotes, List.append_nil]
  refine ⟨written, fun token _ => resolve_of_isReference plainAliases, ?_⟩
  rw [written]
  constructor
  · intro filled token member isReference
    have wrapped := quotesOf_of_isReference plainAliases isReference
    exact filled [] (List.mem_flatMap.mpr ⟨token, member, by simp [wrapped]⟩) rfl
  · intro plain quote member
    obtain ⟨token, inside, found⟩ := List.mem_flatMap.mp member
    have unquoted : backtick ∉ token :=
      fun quoted => plain token inside (complete token inside quoted)
    rw [eq_of_mem_quotesOf unquoted found]
    simpa using List.of_mem_filter inside

def sampleMarkup : TypeMarkup := ⟨[("Any", "|Any|")], .qualified⟩

def sampleReferences : Text := ":class:`a.Foo` of dict[str, int] or `Bar` or Any, optional"

theorem quotes_sampleReferences :
    (∀ pair ∈ sampleMarkup.aliases, backtick ∉ pair.1 ∧ backtick ∉ pair.2) ∧
      (∀ token ∈ TypeExpr.tokens sampleReferences, backtick ∈ token → IsReference token) ∧
      (∀ suffix ∈ TypeExpr.suffixes sampleReferences, backtick ∉ suffix) ∧
      (sampleMarkup.render sampleReferences).quotes = [":class:", "", "dict[str, int]", "", ""] ∧
      sampleMarkup.resolve "`Bar`" = ":py:class:``Bar``" := by
  have plainAliases : ∀ pair ∈ sampleMarkup.aliases, backtick ∉ pair.1 ∧ backtick ∉ pair.2 := by
    decide +kernel
  have complete : ∀ token ∈ TypeExpr.tokens sampleReferences,
      backtick ∈ token → IsReference token := by decide +kernel
  have plainSuffixes : ∀ suffix ∈ TypeExpr.suffixes sampleReferences, backtick ∉ suffix := by
    decide +kernel
  obtain ⟨written, wrapped, -⟩ := quotes_render plainAliases complete plainSuffixes
  refine ⟨plainAliases, complete, plainSuffixes, written.trans (by decide +kernel), ?_⟩
  exact (wrapped "`Bar`" (by decide +kernel) (by decide +kernel)).trans rfl

def sampleReference : Text := ":class:`Foo`, optional"

/-- The role of a wrapped reference stands between backticks. -/
theorem not_forall_isRole_quotes :
    ¬ ∀ (typeMarkup : TypeMarkup) (expr : Text),
      (∀ pair ∈ typeMarkup.aliases, backtick ∉ pair.1 ∧ backtick ∉ pair.2) →
      (∀ token ∈ TypeExpr.tokens expr, backtick ∈ token → IsReference token) →
      (∀ suffix ∈ TypeExpr.suffixes expr, backtick ∉ suffix) →
      ∀ quote ∈ (typeMarkup.render expr).quotes, isRole quote = false := by
  intro all
  have complete : ∀ token ∈ TypeExpr.tokens sampleReference, backtick ∈ token →
      IsReference token := by decide +kernel
  have plain : ∀ suffix ∈ TypeExpr.suffixes sampleReference, backtick ∉ suffix := by decide +kernel
  have role : (":class:" : Text) ∈ (sampleMarkup.render sampleReference).quotes := by decide +kernel
  have noRole := all sampleMarkup sampleReference (by decide) complete plain ":class:" role
  exact absurd noRole (by decide)

end TypeMarkup

end DocMarkup
