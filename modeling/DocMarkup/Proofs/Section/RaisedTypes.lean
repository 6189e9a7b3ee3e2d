import DocMarkup.Parser
import DocMarkup.Proofs.Field.Reference
import DocMarkup.Proofs.Section.Markers

namespace DocMarkup

namespace FieldList

/-- How an error type is to be shown. -/
inductive Unwraps : Text → Text → Prop where
  | reference {type target : Text} : Framed type target → backtick ∉ target → Unwraps type target
  | other {type : Text} : (∀ target, Framed type target → backtick ∈ target) → Unwraps type type

def shownType (type : Text) : Text := (target? type).getD type

theorem shownType_of_framed {type inner : Text} (framed : Framed type inner) :
    shownType type = inner := by
  rw [shownType, target?_eq_some_iff.mpr framed, Option.getD_some]

theorem Framed.ne {type inner : Text} (framed : Framed type inner) : inner ≠ type := by
  obtain ⟨role, -, parts, -⟩ := framed
  intro same
  have longer := congrArg List.length parts
  rw [← same] at longer
  simp only [List.length_append, List.length_cons] at longer
  omega

/-- A type is shown as it is to be exactly if there is no backtick between its outermost ones. -/
theorem unwraps_shownType_iff {type : Text} :
    Unwraps type (shownType type) ↔ ∀ inner, Framed type inner → backtick ∉ inner := by
  constructor
  · intro unwraps inner framed
    have shown := shownType_of_framed framed
    rw [shown] at unwraps
    cases unwraps with
    | reference _ plain => exact plain
    | other => exact absurd rfl framed.ne
  · intro plain
    cases found : target? type with
    | none =>
      have whole : shownType type = type := by rw [shownType, found, Option.getD_none]
      rw [whole]
      refine .other fun target framed => ?_
      rw [target?_eq_some_iff.mpr framed] at found
      cases found
    | some target =>
      have framed := target?_eq_some_iff.mp found
      rw [shownType_of_framed framed]
      exact .reference framed (plain target framed)

def errorMarker (type : Text) : Text :=
  if type.isEmpty then marker "raises" else marker ("raises " ++ type)

end FieldList

namespace Entry

def head (entry : Entry) : Text := (Field.headAndText entry.header).1

end Entry

theorem Field.types_ofEntries (typeMarkup : TypeMarkup) (describe : Block → Block)
    (entries : List Entry) :
    ((Field.ofEntries typeMarkup describe SectionContext.errors entries).map Field.type).filter
        (!·.isEmpty) = (entries.map Entry.head).filter (!·.isEmpty) := by
  induction entries with
  | nil => rfl
  | cons entry entries ih =>
    have alone : ((Field.separate SectionContext.errors
        (Field.ofEntry typeMarkup describe SectionContext.errors entry)).map Field.type).filter
          (!·.isEmpty) = [entry.head].filter (!·.isEmpty) := by
      generalize same : Field.ofEntry typeMarkup describe SectionContext.errors entry = field
      have type : field.type = entry.head := same ▸ rfl
      unfold Field.separate
      rw [if_neg (by simp [SectionContext.errors])]
      split
      · rename_i silent
        simp only [Bool.and_eq_true] at silent
        rw [type] at silent
        simp [silent]
      · simp [type]
    rw [Field.ofEntries, List.flatMap_cons, List.map_append, List.filter_append, alone]
    rw [Field.ofEntries] at ih
    rw [ih, List.map_cons, ← List.filter_append, List.singleton_append]

namespace SectionContext

open FieldList

theorem exists_of_forall₂ {α β : Type} {related : α → β → Prop} {as : List α} {bs : List β}
    (all : List.Forall₂ related as bs) {a : α} (member : a ∈ as) : ∃ b ∈ bs, related a b := by
  induction all with
  | nil => cases member
  | cons first _ ih =>
    rcases List.mem_cons.mp member with rfl | member
    · exact ⟨_, List.mem_cons_self, first⟩
    · obtain ⟨b, member', later⟩ := ih member
      exact ⟨b, List.mem_cons_of_mem _ member', later⟩

/-- The error types of a section at its left margin, in the order of its entries. They are shown as
they are to be, but for those with a backtick between their outermost ones. -/
theorem write_raises (context : SectionContext) (title : Text) (lines : Block) :
    ∃ types shown : List Text,
      types.filter (!·.isEmpty) =
        ((Entry.read (context.scope lines) none lines).1.map Entry.head).filter (!·.isEmpty) ∧
      List.Forall₂ (fun type text =>
        (Unwraps type text ↔ ∀ inner, Framed type inner → backtick ∉ inner) ∧
          ∀ inner, Framed type inner → text = inner) types shown ∧
      Block.MarkedBy (context.write .raises title lines).1 (shown.map errorMarker) := by
  let types := (context.fields errors lines).1.map Field.type
  have entries := Field.types_ofEntries context.typeMarkup context.describe
    (Entry.read (context.scope lines) none lines).1
  have marked := markedBy_raisedAll (context.fields errors lines).1
  refine ⟨types, types.map shownType, entries, ?_, ?_⟩
  · rw [List.forall₂_map_right_iff, List.forall₂_same]
    exact fun type _ => ⟨unwraps_shownType_iff, fun inner framed => shownType_of_framed framed⟩
  · rw [List.map_map, List.map_map]
    exact marked

def sampleErrors : Block := ["    :exc:`ValueError`: If bad.", "    `A` or `B`: Desc."]

theorem write_sampleErrors :
    Framed ":exc:`ValueError`" "ValueError" ∧ Framed "`A` or `B`" "A` or `B" ∧
      ∃ shown : List Text, ("ValueError" : Text) ∈ shown ∧ ("A` or `B" : Text) ∈ shown ∧
        Block.MarkedBy ((Parser.google.sectionContext id).write .raises "Raises" sampleErrors).1
          (shown.map errorMarker) := by
  let context := Parser.google.sectionContext id
  have heads : ((Entry.read (context.scope sampleErrors) none sampleErrors).1.map Entry.head).filter
      (!·.isEmpty) = [":exc:`ValueError`", "`A` or `B`"] := by decide +kernel
  have reference : Framed ":exc:`ValueError`" "ValueError" := target?_eq_some_iff.mp (by decide)
  have several : Framed "`A` or `B`" "A` or `B" := target?_eq_some_iff.mp (by decide)
  obtain ⟨types, shown, entries, related, marked⟩ := write_raises context "Raises" sampleErrors
  rw [heads] at entries
  have shows {type inner : Text} (framed : Framed type inner)
      (member : type ∈ types.filter (!·.isEmpty)) : inner ∈ shown := by
    obtain ⟨text, member', -, same⟩ := exists_of_forall₂ related (List.mem_of_mem_filter member)
    exact same inner framed ▸ member'
  rw [entries] at shows
  exact ⟨reference, several, shown, shows reference (by simp), shows several (by simp), marked⟩

/-- Two references are no reference, but they are cut like one. -/
theorem not_forall_unwraps :
    ¬ ∀ (context : SectionContext) (title : Text) (lines : Block), ∃ types shown : List Text,
      types.filter (!·.isEmpty) =
        ((Entry.read (context.scope lines) none lines).1.map Entry.head).filter (!·.isEmpty) ∧
      List.Forall₂ Unwraps types shown ∧
      Block.MarkedBy (context.write .raises title lines).1 (shown.map errorMarker) := by
  intro all
  let lines : Block := ["    `A` or `B`: Desc."]
  let context := Parser.google.sectionContext id
  obtain ⟨types, shown, entries, unwraps, marked⟩ := all context "Raises" lines
  have heads : (Entry.read (context.scope lines) none lines).1.map Entry.head =
      ["`A` or `B`"] := by decide +kernel
  have written : Block.flushLeft (context.write .raises "Raises" lines).1 =
      [":raises A` or `B: Desc."] := by decide +kernel
  rw [Block.MarkedBy, written] at marked
  rw [heads] at entries
  obtain ⟨marker, markers, marks, none, single⟩ := List.forall₂_cons_right_iff.mp marked
  rw [List.forall₂_nil_right_iff.mp none] at single
  obtain ⟨text, rfl, rfl⟩ := List.map_eq_singleton_iff.mp single
  obtain ⟨type, others, unwrapped, none, rfl⟩ := List.forall₂_cons_right_iff.mp unwraps
  rw [List.forall₂_nil_right_iff.mp none] at entries
  have same : type = "`A` or `B`" := by
    by_cases empty : type = []
    · simp [empty] at entries
    · simpa [empty] using entries
  subst same
  have cut : target? "`A` or `B`" = some "A` or `B" := by decide
  cases unwrapped with
  | reference framed plain =>
    rw [target?_eq_some_iff.mpr framed] at cut
    exact plain (Option.some.inj cut ▸ by decide)
  | other =>
    rcases marks with same | ⟨rest, same⟩
    · exact absurd same (by decide)
    · have eighth := congrArg (fun text : Text => text[8]?) same
      cases eighth

end SectionContext

end DocMarkup
