import DocMarkup.Proofs.Field.TypedHeader
import DocMarkup.Section.Basic

namespace DocMarkup

open Text

structure IsSharedName (name : Text) : Prop where
  nonempty : name ≠ []
  trimmed : name.trim = name
  plain : ∀ c ∈ name, c ≠ ',' ∧ c ≠ ':' ∧ c ≠ '(' ∧ c ≠ backtick ∧ c ≠ '\n'

instance (name : Text) : Decidable (IsSharedName name) :=
  decidable_of_iff
    (name ≠ [] ∧ name.trim = name ∧
      (name.all fun c => c ≠ ',' ∧ c ≠ ':' ∧ c ≠ '(' ∧ c ≠ backtick ∧ c ≠ '\n') = true)
    ⟨fun h => ⟨h.1, h.2.1, fun c member => of_decide_eq_true (List.all_eq_true.mp h.2.2 c member)⟩,
      fun h => ⟨h.nonempty, h.trimmed,
        List.all_eq_true.mpr fun c member => decide_eq_true (h.plain c member)⟩⟩

structure IsEnclosed (type : Text) : Prop where
  content : type.trim ≠ []
  plain : ∀ c ∈ type, c ≠ '(' ∧ c ≠ ')' ∧ c ≠ ':' ∧ c ≠ backtick ∧ c ≠ '\n'

instance (type : Text) : Decidable (IsEnclosed type) :=
  decidable_of_iff
    (type.trim ≠ [] ∧
      (type.all fun c => c ≠ '(' ∧ c ≠ ')' ∧ c ≠ ':' ∧ c ≠ backtick ∧ c ≠ '\n') = true)
    ⟨fun h => ⟨h.1, fun c member => of_decide_eq_true (List.all_eq_true.mp h.2 c member)⟩,
      fun h => ⟨h.content,
        List.all_eq_true.mpr fun c member => decide_eq_true (h.plain c member)⟩⟩

def enclosed : Option Text → Text
  | none => []
  | some type => ' ' :: '(' :: (type ++ [')'])

def listed (names : List Text) : Text := joinWith ", " names

def sharedHead (names : List Text) (type? : Option Text) : Text :=
  listed names ++ enclosed type?

/-- The names, the type if there is one, a colon and the text. -/
def sharedHeader (margin : Text) (names : List Text) (type? : Option Text) (text : Text) : Text :=
  margin ++ sharedHead names type? ++ ": " ++ text

section Names

theorem joinWith_cons_cons (separator name next : Text) (names : List Text) :
    joinWith separator (name :: next :: names) =
      name ++ separator ++ joinWith separator (next :: names) := by
  rw [joinWith, List.intercalate_cons_cons]
  rfl

theorem exists_joinWith_cons (separator name : Text) (names : List Text) :
    ∃ behind, joinWith separator (name :: names) = name ++ behind := by
  cases names with
  | nil => exact ⟨[], by simp [joinWith]⟩
  | cons next names =>
    exact ⟨separator ++ joinWith separator (next :: names), by simp [joinWith_cons_cons]⟩

theorem mem_joinWith {separator : Text} {names : List Text} {c : Char}
    (member : c ∈ joinWith separator names) : c ∈ separator ∨ ∃ name ∈ names, c ∈ name := by
  induction names with
  | nil => cases member
  | cons name names ih =>
    cases names with
    | nil => exact .inr ⟨name, List.mem_cons_self, by simpa [joinWith] using member⟩
    | cons next names =>
      rw [joinWith_cons_cons, List.mem_append, List.mem_append] at member
      rcases member with (inFirst | between) | behind
      · exact .inr ⟨name, List.mem_cons_self, inFirst⟩
      · exact .inl between
      · rcases ih behind with between | ⟨other, inside, found⟩
        · exact .inl between
        · exact .inr ⟨other, List.mem_cons_of_mem _ inside, found⟩

theorem not_mem_names {names : List Text} {c : Char} (comma : c ≠ ',') (space : c ≠ ' ')
    (absent : ∀ name ∈ names, c ∉ name) : c ∉ listed names := by
  intro member
  rcases mem_joinWith member with between | ⟨name, inside, found⟩
  · rcases List.mem_pair.mp between with same | same
    · exact comma same
    · exact space same
  · exact absent name inside found

variable {names : List Text} (regular : ∀ name ∈ names, IsSharedName name)

include regular

theorem map_trim_splitOn_names (nonempty : names ≠ []) {blanks : Text} (blank : blanks.IsMargin) :
    ((blanks ++ listed names).splitOn ',').map trim = names := by
  induction names generalizing blanks with
  | nil => exact absurd rfl nonempty
  | cons name names ih =>
    obtain ⟨first, others⟩ := List.forall_mem_cons.mp regular
    have absent : ',' ∉ blanks ++ name := by
      rw [List.mem_append, not_or]
      exact ⟨blank.not_mem (by decide), fun member => (first.plain _ member).1 rfl⟩
    have trimmed : trim (blanks ++ name) = name := by rw [trim_append blank, first.trimmed]
    cases names with
    | nil =>
      have alone : listed [name] = name := by simp [listed, joinWith]
      rw [alone, List.splitOn_eq_singleton absent, List.map_singleton, trimmed]
    | cons next names =>
      have behind := ih others (List.cons_ne_nil _ _) (isMargin_spaces 1)
      have parts : blanks ++ listed (name :: next :: names) =
          (blanks ++ name) ++ ',' :: (spaces 1 ++ listed (next :: names)) := by
        rw [listed, joinWith_cons_cons, List.append_assoc, List.append_assoc]
        rfl
      rw [parts, List.splitOn_append_cons_self, List.map_append, behind,
        List.splitOn_eq_singleton absent, List.map_singleton, trimmed]
      rfl

theorem margin_names_append (nonempty : names ≠ []) (rest : Text) :
    (listed names ++ rest).margin = [] := by
  obtain ⟨name, others, rfl⟩ := List.exists_cons_of_ne_nil nonempty
  obtain ⟨behind, parts⟩ := exists_joinWith_cons ", " name others
  have first := regular name List.mem_cons_self
  rw [listed, parts, List.append_assoc]
  exact margin_append_of_nonempty (margin_of_trim_eq first.trimmed) first.nonempty _

theorem names_ne_nil (nonempty : names ≠ []) : listed names ≠ [] := by
  obtain ⟨name, others, rfl⟩ := List.exists_cons_of_ne_nil nonempty
  obtain ⟨behind, parts⟩ := exists_joinWith_cons ", " name others
  rw [listed, parts]
  exact List.append_ne_nil_of_left_ne_nil (regular name List.mem_cons_self).nonempty _

theorem trimEnd_names : (listed names).trimEnd = listed names := by
  induction names with
  | nil => rfl
  | cons name names ih =>
    obtain ⟨first, others⟩ := List.forall_mem_cons.mp regular
    cases names with
    | nil =>
      have alone : listed [name] = name := by simp [listed, joinWith]
      rw [alone, trimEnd_of_trim_eq first.trimmed]
    | cons next names =>
      rw [listed, joinWith_cons_cons]
      exact trimEnd_append_of_nonempty (ih others) (names_ne_nil others (List.cons_ne_nil _ _)) _

end Names

theorem Text.splitTyped?_eq_none {head : Text} (opens : '(' ∉ head) : head.splitTyped? = none := by
  induction head with
  | nil => rfl
  | cons c head ih =>
    have behind : '(' ∉ head := fun member => opens (List.mem_cons_of_mem _ member)
    have other : (head.head? == some '(') = false := by
      rw [beq_eq_false_iff_ne]
      exact fun same => behind (List.mem_of_head? same)
    rw [splitTyped?, other, ih behind]
    simp

theorem Text.closedPiece?_of_isEnclosed {type : Text} (isEnclosed : IsEnclosed type) :
    closedPiece? (trimStart (type ++ [')'])) = some type.trim := by
  obtain ⟨gap, eq, blank⟩ := exists_trimEnd_append type.trimStart
  have ends : type.trim.trimEnd = type.trim := trimEnd_trimEnd _
  have parts : trimStart (type ++ [')']) = type.trim ++ (gap ++ [')']) := by
    rw [trimStart_append_cons (by decide), ← List.append_assoc]
    exact congrArg (· ++ [')']) eq.symm
  have line : '\n' ∉ type.trim := by
    intro member
    have inside := mem_of_mem_trimEnd ((trim_suffix_trimEnd type).subset member)
    exact (isEnclosed.plain _ inside).2.2.2.2 rfl
  rw [parts]
  exact closedPiece?_append isEnclosed.content ends line blank

section Header

variable {names : List Text} {type? : Option Text}

theorem trimEnd_sharedHeader (margin : Text) (names : List Text) (type? : Option Text)
    (text : Text) :
    (sharedHeader margin names type? text).trimEnd =
      margin ++ sharedHead names type? ++ ':' :: trimEnd (' ' :: text) := by
  have closed : (margin ++ sharedHead names type? ++ [':']).trimEnd =
      margin ++ sharedHead names type? ++ [':'] := trimEnd_append_of_content (by decide) _
  have parts := trimEnd_append_left closed (' ' :: text)
  rw [List.append_assoc _ [':'], List.append_assoc _ [':']] at parts
  rw [sharedHeader, List.append_assoc _ (String.toList ": ")]
  exact parts

variable (regular : ∀ name ∈ names, IsSharedName name) (typed : ∀ type ∈ type?, IsEnclosed type)

include regular typed

theorem not_mem_sharedHead {c : Char} (special : c = ':' ∨ c = backtick) :
    c ∉ sharedHead names type? := by
  have inNames : c ∉ listed names := by
    refine not_mem_names ?_ ?_ fun name member inside => ?_
    · rcases special with rfl | rfl <;> decide
    · rcases special with rfl | rfl <;> decide
    · have plain := (regular name member).plain c inside
      rcases special with rfl | rfl
      · exact plain.2.1 rfl
      · exact plain.2.2.2.1 rfl
  have inType : c ∉ enclosed type? := by
    cases type? with
    | none => exact List.not_mem_nil
    | some type =>
      have absent : c ∉ type := by
        intro inside
        have plain := (typed type rfl).plain c inside
        rcases special with rfl | rfl
        · exact plain.2.2.1 rfl
        · exact plain.2.2.2.1 rfl
      have outside : c ≠ ' ' ∧ c ≠ '(' ∧ c ≠ ')' := by
        rcases special with rfl | rfl <;> decide
      simp [enclosed, absent, outside]
  rw [sharedHead, List.mem_append, not_or]
  exact ⟨inNames, inType⟩

theorem splitTyped?_sharedHead :
    (sharedHead names type?).splitTyped? =
      type?.map fun type => (listed names ++ [' '], type.trim) := by
  have opens : '(' ∉ listed names := not_mem_names (by decide) (by decide)
    fun name member inside => ((regular name member).plain _ inside).2.2.1 rfl
  cases type? with
  | none =>
    rw [sharedHead, enclosed, List.append_nil]
    exact splitTyped?_eq_none opens
  | some type =>
    have line : '\n' ∉ listed names := not_mem_names (by decide) (by decide)
      fun name member inside => ((regular name member).plain _ inside).2.2.2.2 rfl
    exact splitTyped?_append line opens (closedPiece?_of_isEnclosed (typed type rfl))

variable (nonempty : names ≠ [])

include nonempty

omit typed in
theorem trim_sharedHead : (sharedHead names type?).trim = sharedHead names type? := by
  refine trim_eq_self (margin_names_append regular nonempty _) ?_
  cases type? with
  | none =>
    rw [sharedHead, enclosed, List.append_nil]
    exact trimEnd_names regular
  | some type =>
    have ends : sharedHead names (some type) = (listed names ++ " (" ++ type) ++ [')'] := by
      simp [sharedHead, enclosed]
    rw [ends]
    exact trimEnd_append_of_content (by decide) _

theorem nameAndType_sharedHead :
    Field.nameAndType SectionContext.shared (sharedHead names type?) =
      (listed names, (type?.map trim).getD []) := by
  have single : IsMargin [' '] := isMargin_spaces 1
  have alone : (listed names).trim = listed names := by
    have starts := margin_names_append regular nonempty []
    rw [List.append_nil] at starts
    exact trim_eq_self starts (trimEnd_names regular)
  have trimmed : trim (listed names ++ [' ']) = listed names := by
    rw [trim_append_blanks single, alone]
  have split := splitTyped?_sharedHead regular typed
  cases type? with
  | none =>
    have head : sharedHead names none = listed names := List.append_nil _
    rw [head] at split ⊢
    simp [Field.nameAndType, SectionContext.shared, split]
  | some type =>
    simp [Field.nameAndType, SectionContext.shared, split, trimmed]

variable {margin : Text} (blank : margin.IsMargin) (text : Text)

include blank

theorem headAndText_sharedHeader :
    Field.headAndText (sharedHeader margin names type? text).trimEnd =
      (sharedHead names type?, text.trim) := by
  have absent : ∀ {c : Char}, c = ':' ∨ c = backtick → c ∉ margin ++ sharedHead names type? := by
    intro c special
    rw [List.mem_append, not_or]
    refine ⟨blank.not_mem ?_, not_mem_sharedHead regular typed special⟩
    rcases special with rfl | rfl <;> decide
  have spaced : ∀ c ∈ (trimEnd (' ' :: text)).head?, c = ' ' := by
    intro c member
    obtain ⟨behind, eq, -⟩ := exists_trimEnd_append (' ' :: text)
    obtain ⟨rest, front⟩ := List.head?_eq_some_iff.mp member
    rw [front] at eq
    exact (List.cons.inj eq).1
  have after : (trimEnd (' ' :: text)).trim = text.trim := by
    rw [trim_trimEnd]
    exact trim_append (isMargin_spaces 1) text
  rw [Field.headAndText, trimEnd_sharedHeader,
    splitColon?_append (absent (.inl rfl)) (absent (.inr rfl)) spaced, after, trim_append blank,
    trim_sharedHead regular nonempty]

omit typed in
theorem indent_sharedHeader :
    (sharedHeader margin names type? text).trimEnd.indent = margin.length := by
  have starts := margin_names_append regular nonempty
    (enclosed type? ++ ':' :: trimEnd (' ' :: text))
  have parts : (sharedHeader margin names type? text).trimEnd = margin ++
      (listed names ++ (enclosed type? ++ ':' :: trimEnd (' ' :: text))) := by
    rw [trimEnd_sharedHeader, sharedHead]
    simp
  rw [parts, indent_append blank, indent, starts]
  rfl

theorem separate_sharedHeader (typeMarkup : TypeMarkup) (describe : Block → Block)
    (block : Block) :
    Field.separate SectionContext.shared (Field.ofEntry typeMarkup describe SectionContext.shared
        ⟨(sharedHeader margin names type? text).trimEnd, block⟩) =
      names.map fun name =>
        { name := Field.escapeStars name
          type := typeMarkup.render ((type?.map trim).getD [])
          description := describe (text.trim :: Block.dedent block) } := by
  have cut := map_trim_splitOn_names regular nonempty (isMargin_spaces 0)
  have named : (listed names).isEmpty = false := by
    simpa using names_ne_nil regular nonempty
  have field : Field.ofEntry typeMarkup describe SectionContext.shared
      ⟨(sharedHeader margin names type? text).trimEnd, block⟩ =
        ⟨listed names, typeMarkup.render ((type?.map trim).getD []),
          describe (text.trim :: Block.dedent block)⟩ := by
    simp only [Field.ofEntry, headAndText_sharedHeader regular typed nonempty blank,
      nameAndType_sharedHead regular typed nonempty]
    rfl
  rw [field, Field.separate, named]
  simp only [SectionContext.shared, Bool.not_false, Bool.and_self, ↓reduceIte]
  conv_rhs => rw [← cut, List.map_map]
  rfl

end Header

theorem Wrapped.mem_dropWhile {keeps : Char → Bool} {text : Text} {c : Char} (member : c ∈ text)
    (other : keeps c = false) : c ∈ text.dropWhile keeps := by
  rw [← List.takeWhile_append_dropWhile (p := keeps) (l := text), List.mem_append] at member
  rcases member with front | behind
  · have kept := List.all_eq_true.mp List.all_takeWhile c front
    rw [other] at kept
    cases kept
  · exact behind

theorem Wrapped.mem_dropStar {text : Text} {c : Char} (member : c ∈ text) (other : c ≠ '*') :
    c ∈ dropStar text := by
  unfold dropStar
  split
  · exact (List.mem_cons.mp member).resolve_left other
  · exact member

theorem Wrapped.mem_trimStart {text : Text} {c : Char} (member : c ∈ text)
    (content : isBlank c = false) : c ∈ text.trimStart := mem_dropWhile member content

theorem Wrapped.isStart_of_colon {line : Text} (colon : ':' ∈ line) : isStart line = false := by
  rw [Bool.eq_false_iff]
  intro starts
  simp only [isStart, Bool.and_eq_true, beq_iff_eq] at starts
  obtain ⟨⟨-, opens⟩, inside⟩ := starts
  have star : ':' ≠ '*' := by decide
  have word := mem_dropStar (mem_dropStar (mem_trimStart colon (by decide)) star) star
  have behind := mem_trimStart (mem_dropWhile word (by decide : isNameChar ':' = false)) (by decide)
  obtain ⟨tail, front⟩ := List.head?_eq_some_iff.mp opens
  rw [front] at behind inside
  have found : ':' ∈ tail := (List.mem_cons.mp behind).resolve_left (by decide)
  cases List.all_eq_true.mp inside ':' found

end DocMarkup
