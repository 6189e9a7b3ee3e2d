import Mathlib.Data.List.Basic
import DocMarkup.Field.Markup
import DocMarkup.Proofs.TypeExpr.Pieces

namespace DocMarkup

namespace TypeMarkup

def plain (roles : RoleStyle) : TypeMarkup := ⟨[], roles⟩

def tokenText (roles : RoleStyle) (tokens : List Text) : Text :=
  tokens.flatMap fun token => ' ' :: (plain roles).resolve token

def suffixText (suffixes : List Text) : Text := suffixes.flatMap emphasizedSuffix

variable {roles : RoleStyle}

theorem of_mem_connectors : ∀ token ∈ connectors, token.length = 2 ∧ token.head? = some 'o' := by
  decide

theorem resolve_cases (roles : RoleStyle) (token : Text) :
    (token ∈ connectors ∧ (plain roles).resolve token = token) ∨
      ∃ role, backtick ∉ ':' :: role ∧
        (plain roles).resolve token = ':' :: role ++ backtick :: (token ++ [backtick]) := by
  by_cases connector : token ∈ connectors
  · exact .inl ⟨connector, by simp [resolve, connector]⟩
  · refine .inr ?_
    by_cases none : token = "None"
    · refine ⟨roles.objectRole.tail, ?_, ?_⟩
      · cases roles <;> decide
      · simp only [resolve, List.contains_iff_mem, none, ↓reduceIte]
        cases roles <;> rfl
    · refine ⟨roles.classRole.tail, ?_, ?_⟩
      · cases roles <;> decide
      · simp only [resolve, List.contains_iff_mem, connector, none, ↓reduceIte]
        cases roles <;> rfl

theorem head?_connector {token : Text} (connector : token ∈ connectors) (rest : Text) :
    (token ++ rest).head? = some 'o' := by
  rw [List.head?_append, (of_mem_connectors token connector).2, Option.some_or]

theorem head?_resolve (roles : RoleStyle) (token rest : Text) :
    ((plain roles).resolve token ++ rest).head? = some 'o' ∨
      ((plain roles).resolve token ++ rest).head? = some ':' := by
  rcases resolve_cases roles token with ⟨connector, same⟩ | ⟨role, -, same⟩
  · rw [same]
    exact .inl (head?_connector connector rest)
  · rw [same]
    exact .inr rfl

theorem append_cons_inj {c : Char} {before before' rest rest' : Text} (free : c ∉ before)
    (free' : c ∉ before') (eq : before ++ c :: rest = before' ++ c :: rest') :
    before = before' ∧ rest = rest' := by
  induction before generalizing before' with
  | nil =>
    cases before' with
    | nil => exact ⟨rfl, (List.cons.inj eq).2⟩
    | cons d before' => exact absurd (List.cons.inj eq).1 (List.ne_of_not_mem_cons free')
  | cons d before ih =>
    cases before' with
    | nil => exact absurd (List.cons.inj eq).1.symm (List.ne_of_not_mem_cons free)
    | cons d' before' =>
      obtain ⟨rfl, others⟩ := List.cons.inj eq
      obtain ⟨rfl, same⟩ := ih (List.not_mem_of_not_mem_cons free)
        (List.not_mem_of_not_mem_cons free') others
      exact ⟨rfl, same⟩

theorem resolve_append_inj {token token' rest rest' : Text} (free : backtick ∉ token)
    (free' : backtick ∉ token')
    (eq : (plain roles).resolve token ++ rest = (plain roles).resolve token' ++ rest') :
    token = token' ∧ rest = rest' := by
  rcases resolve_cases roles token with ⟨connector, same⟩ | ⟨role, plainRole, same⟩ <;>
  rcases resolve_cases roles token' with ⟨connector', same'⟩ | ⟨role', plainRole', same'⟩ <;>
  rw [same, same'] at eq
  · obtain ⟨length, -⟩ := of_mem_connectors token connector
    obtain ⟨length', -⟩ := of_mem_connectors token' connector'
    exact List.append_inj eq (length.trans length'.symm)
  · have heads := (head?_connector connector rest).symm.trans (congrArg List.head? eq)
    simp at heads
  · have heads := (head?_connector connector' rest').symm.trans (congrArg List.head? eq.symm)
    simp at heads
  · simp only [List.append_assoc, List.cons_append, List.nil_append] at eq
    rw [← List.cons_append, ← List.cons_append] at eq
    obtain ⟨-, targets⟩ := append_cons_inj plainRole plainRole' eq
    exact append_cons_inj free free' targets

theorem tokenText_append_inj {tokens tokens' : List Text} {rest rest' : Text}
    (free : ∀ token ∈ tokens, backtick ∉ token) (free' : ∀ token ∈ tokens', backtick ∉ token)
    (ends : rest.head? ≠ some ' ') (ends' : rest'.head? ≠ some ' ')
    (eq : tokenText roles tokens ++ rest = tokenText roles tokens' ++ rest') :
    tokens = tokens' ∧ rest = rest' := by
  induction tokens generalizing tokens' with
  | nil =>
    cases tokens' with
    | nil => exact ⟨rfl, eq⟩
    | cons => exact absurd (congrArg List.head? eq) ends
  | cons token tokens ih =>
    cases tokens' with
    | nil => exact absurd (congrArg List.head? eq.symm) ends'
    | cons token' tokens' =>
      obtain ⟨first, others⟩ := List.forall_mem_cons.mp free
      obtain ⟨first', others'⟩ := List.forall_mem_cons.mp free'
      simp only [tokenText, List.flatMap_cons, List.cons_append, List.append_assoc,
        List.cons.injEq, true_and] at eq
      obtain ⟨rfl, behind⟩ := resolve_append_inj first first' eq
      obtain ⟨rfl, same⟩ := ih others others' behind
      exact ⟨rfl, same⟩

theorem head?_suffixText (suffixes : List Text) :
    (suffixText suffixes).head? = none ∨ (suffixText suffixes).head? = some ',' := by
  cases suffixes with
  | nil => exact .inl rfl
  | cons => exact .inr rfl

theorem suffixText_inj {suffixes suffixes' : List Text} (free : ∀ suffix ∈ suffixes, '*' ∉ suffix)
    (free' : ∀ suffix ∈ suffixes', '*' ∉ suffix)
    (eq : suffixText suffixes = suffixText suffixes') : suffixes = suffixes' := by
  induction suffixes generalizing suffixes' with
  | nil =>
    cases suffixes' with
    | nil => rfl
    | cons => contradiction
  | cons suffix suffixes ih =>
    cases suffixes' with
    | nil => contradiction
    | cons suffix' suffixes' =>
      obtain ⟨first, others⟩ := List.forall_mem_cons.mp free
      obtain ⟨first', others'⟩ := List.forall_mem_cons.mp free'
      have parts : suffix ++ '*' :: suffixText suffixes =
          suffix' ++ '*' :: suffixText suffixes' := by
        simpa [suffixText, emphasizedSuffix] using eq
      obtain ⟨rfl, behind⟩ := append_cons_inj first first' parts
      rw [ih others others' behind]

theorem joinWith_resolve (token : Text) (tokens : List Text) :
    Text.joinWith " " ((token :: tokens).map (plain roles).resolve) =
      (plain roles).resolve token ++ tokenText roles tokens := by
  induction tokens generalizing token with
  | nil => simp [Text.joinWith, tokenText]
  | cons next tokens ih =>
    rw [List.map_cons, Text.joinWith, List.map_cons, List.intercalate_cons_cons, ← List.map_cons,
      ← Text.joinWith, ih]
    simp [tokenText]

theorem phrase_inj {tokens tokens' suffixes suffixes' : List Text}
    (free : ∀ token ∈ tokens, backtick ∉ token) (free' : ∀ token ∈ tokens', backtick ∉ token)
    (eq : Text.joinWith " " (tokens.map (plain roles).resolve) ++ suffixText suffixes =
      Text.joinWith " " (tokens'.map (plain roles).resolve) ++ suffixText suffixes') :
    tokens = tokens' ∧ suffixText suffixes = suffixText suffixes' := by
  have unspaced (suffixes : List Text) : (suffixText suffixes).head? ≠ some ' ' := by
    rcases head?_suffixText suffixes with head | head <;> rw [head] <;> simp
  have apart (suffixes : List Text) (token rest : Text) :
      suffixText suffixes ≠ (plain roles).resolve token ++ rest := by
    intro same
    have head := head?_suffixText suffixes
    rw [same] at head
    rcases head?_resolve roles token rest with other | other <;> rw [other] at head <;> simp at head
  cases tokens with
  | nil =>
    cases tokens' with
    | nil => exact ⟨rfl, eq⟩
    | cons token' tokens' =>
      rw [joinWith_resolve, List.append_assoc] at eq
      exact absurd eq (apart _ _ _)
  | cons token tokens =>
    cases tokens' with
    | nil =>
      rw [joinWith_resolve, List.append_assoc] at eq
      exact absurd eq.symm (apart _ _ _)
    | cons token' tokens' =>
      obtain ⟨first, others⟩ := List.forall_mem_cons.mp free
      obtain ⟨first', others'⟩ := List.forall_mem_cons.mp free'
      rw [joinWith_resolve, joinWith_resolve, List.append_assoc, List.append_assoc] at eq
      obtain ⟨rfl, behind⟩ := resolve_append_inj first first' eq
      obtain ⟨rfl, same⟩ :=
        tokenText_append_inj others others' (unspaced _) (unspaced _) behind
      exact ⟨rfl, same⟩

theorem render_eq (typeMarkup : TypeMarkup) (expr : Text) :
    typeMarkup.render expr =
      Text.joinWith " " ((TypeExpr.tokens expr).map typeMarkup.resolve) ++
        suffixText (TypeExpr.suffixes expr) := by
  cases expr with
  | nil => rfl
  | cons => rfl

theorem render_plain (roles : RoleStyle) (expr : Text) :
    (plain roles).render expr =
      Text.joinWith " " ((TypeExpr.tokens expr).map (plain roles).resolve) ++
        suffixText (TypeExpr.suffixes expr) :=
  render_eq (plain roles) expr

end TypeMarkup

namespace TypeExpr

theorem mem_of_mem_tokens {expr token : Text} {c : Char} (member : token ∈ tokens expr)
    (inside : c ∈ token) : c ∈ expr := by
  have inPrimary := mem_of_mem_splitAtDepth (List.mem_of_mem_filter member) inside
  cases parts : clauses expr with
  | nil => exact absurd parts (clauses_ne_nil expr)
  | cons primary others =>
    rw [parts, List.headD_cons] at inPrimary
    exact mem_of_mem_splitAtDepth (parts ▸ List.mem_cons_self : primary ∈ clauses expr) inPrimary

theorem mem_of_mem_suffixes {expr suffix : Text} {c : Char} (member : suffix ∈ suffixes expr)
    (content : isBlank c = false) (inside : c ∈ suffix) : c ∈ expr := by
  obtain ⟨clause, clauseMember, rfl⟩ := List.mem_map.mp (List.mem_of_mem_filter member)
  exact mem_of_mem_splitAtDepth (List.mem_of_mem_tail clauseMember)
    ((Text.mem_trim_iff content).mp inside)

end TypeExpr

namespace TypeMarkup

/-- Without aliases, two expressions are written alike exactly if they say the same: nothing of a
token or a suffix is lost, whatever brackets it holds. -/
theorem render_eq_render_iff (roles : RoleStyle) {expr expr' : Text}
    (unmarked : ∀ c ∈ expr, c ≠ backtick ∧ c ≠ '*')
    (unmarked' : ∀ c ∈ expr', c ≠ backtick ∧ c ≠ '*') :
    ∃ reading reading', (∀ read, TypeExpr.Reads expr read ↔ read = reading) ∧
      (∀ read, TypeExpr.Reads expr' read ↔ read = reading') ∧
      ((⟨[], roles⟩ : TypeMarkup).render expr = (⟨[], roles⟩ : TypeMarkup).render expr' ↔
        reading = reading') := by
  refine ⟨_, _, fun _ => TypeExpr.reads_iff, fun _ => TypeExpr.reads_iff, ?_, ?_⟩
  · intro same
    have same : (plain roles).render expr = (plain roles).render expr' := same
    rw [render_plain, render_plain] at same
    obtain ⟨tokens, written⟩ := phrase_inj
      (fun token member inside => (unmarked _ (TypeExpr.mem_of_mem_tokens member inside)).1 rfl)
      (fun token member inside => (unmarked' _ (TypeExpr.mem_of_mem_tokens member inside)).1 rfl)
      same
    have suffixes := suffixText_inj
      (fun suffix member inside =>
        (unmarked _ (TypeExpr.mem_of_mem_suffixes member (by decide) inside)).2 rfl)
      (fun suffix member inside =>
        (unmarked' _ (TypeExpr.mem_of_mem_suffixes member (by decide) inside)).2 rfl)
      written
    rw [TypeExpr.reading, TypeExpr.reading, tokens, suffixes]
  · intro same
    obtain ⟨tokens, suffixes⟩ := TypeExpr.Reading.mk.inj same
    change (plain roles).render expr = (plain roles).render expr'
    rw [render_plain, render_plain, tokens, suffixes]

def sampleExpr : Text := "dict[str, (int)] ] or None,  optional,, default (1, 2"

def sampleRespaced : Text := " dict[str, (int)]  ] or None , optional,default (1, 2"

theorem render_sampleExpr :
    (∀ c ∈ sampleExpr, c ≠ backtick ∧ c ≠ '*') ∧
      (∀ c ∈ sampleRespaced, c ≠ backtick ∧ c ≠ '*') ∧
      (⟨[], .qualified⟩ : TypeMarkup).render sampleExpr =
        (⟨[], .qualified⟩ : TypeMarkup).render sampleRespaced := by
  have plain : (sampleExpr ++ sampleRespaced).all (fun c => c != backtick && c != '*') = true := by
    decide
  simp only [List.all_append, Bool.and_eq_true, List.all_eq_true, bne_iff_ne] at plain
  obtain ⟨unmarked, unmarked'⟩ := plain
  obtain ⟨reading, reading', reads, reads', same⟩ :=
    render_eq_render_iff .qualified unmarked unmarked'
  refine ⟨unmarked, unmarked', same.mpr ?_⟩
  rw [← (reads _).mp (TypeExpr.reads_iff.mpr rfl), ← (reads' _).mp (TypeExpr.reads_iff.mpr rfl)]
  decide

end TypeMarkup

end DocMarkup
