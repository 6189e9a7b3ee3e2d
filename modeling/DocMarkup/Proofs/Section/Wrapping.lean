import DocMarkup.Proofs.Field.WrappedHeader
import DocMarkup.Parser

namespace DocMarkup

open Text

theorem Field.ofEntry_typedHead (typeMarkup : TypeMarkup) (describe : Block → Block)
    {style : EntryStyle} (typed : style.typed = true) {margin name lead type trail : Text}
    (blank : margin.IsMargin) (isName : IsName name) (front : Wrapped.IsGap lead)
    (back : Wrapped.IsGap trail) (regular : IsTypeText type) (block : Block) :
    ofEntry typeMarkup describe style ⟨margin ++ typedHead name lead type trail ++ [':'], block⟩ =
      ⟨name, typeMarkup.render type, describe ([] :: Block.dedent block)⟩ := by
  simp only [ofEntry, headAndText_typedHead isName front back regular blank,
    nameAndType_typedHead isName front back regular typed, typed, ↓reduceIte]

theorem indent_typedHead {margin name : Text} (blank : margin.IsMargin) (isName : IsName name)
    (lead type trail : Text) :
    indent (margin ++ typedHead name lead type trail ++ [':']) = margin.length := by
  have starts : (typedHead name lead type trail ++ [':']).margin = [] := by
    rw [typedHead, List.append_assoc]
    exact isName.margin_append _
  rw [List.append_assoc, indent_append blank, indent, starts]
  rfl

namespace SectionContext

variable {context : SectionContext} {style : EntryStyle} {scope : Scope}

theorem field_of_join (typed : style.typed = true) {margin name lead type trail : Text}
    (blank : margin.IsMargin) (isName : IsName name) (front : Wrapped.IsGap lead)
    (back : Wrapped.IsGap trail) (regular : IsTypeText type) {lines behind : Block}
    (joined : Wrapped.join context.wrapBound lines =
      (margin ++ typedHead name lead type trail ++ [':']) :: behind) :
    context.field style scope lines =
      (⟨name, context.typeMarkup.render type,
        context.describe ([] :: Block.dedent (scope.takeIndented (margin.length + 1) behind).1)⟩,
        (scope.takeIndented (margin.length + 1) behind).2) := by
  have bound : context.headerBound style = some context.wrapBound := if_pos typed
  simp only [field, bound, Entry.take, Entry.unwrap, joined,
    indent_typedHead blank isName lead type trail, Prod.map_apply, id]
  rw [Field.ofEntry_typedHead _ _ typed blank isName front back regular]

theorem join_oneLine {margin name type : Text} (blank : margin.IsMargin) (isName : IsName name)
    (bound : Nat) (behind : Block) :
    Wrapped.join bound (((margin ++ name ++ " (" ++ type ++ "):") :: behind).map Text.trimEnd) =
      (margin ++ typedHead name [] type [] ++ [':']) :: behind.map Text.trimEnd := by
  have trimmed : (margin ++ name ++ " (" ++ type ++ "):").trimEnd =
      margin ++ name ++ " (" ++ (type ++ "):") := by
    rw [trimEnd_append_of_nonempty (by decide) (by decide), List.append_assoc]
  have whole : Wrapped.isStart (margin ++ name ++ " (" ++ (type ++ "):")) = false := by
    rw [Wrapped.isStart_header blank isName]
    simp
  rw [List.map_cons, trimmed, Wrapped.join, whole]
  simp [typedHead]

/-- Wrapping the type of a field changes nothing: the name, the type and the description are the same
as on one line, and so are the lines behind the field. -/
theorem field_of_wraps (typed : style.typed = true) {margin name type : Text}
    (blank : margin.IsMargin) (isName : IsName name) (regular : IsTypeText type) {lines : Block}
    (wraps : Wraps margin name type lines) (content : ∀ line ∈ lines, line.trim ≠ [])
    (two : 2 ≤ lines.length) (near : lines.length ≤ context.wrapBound + 1) (rest : Block) :
    context.field style scope ((lines ++ rest).map Text.trimEnd) =
      context.field style scope
        (((margin ++ name ++ " (" ++ type ++ "):") :: rest).map Text.trimEnd) := by
  obtain ⟨lead, trail, front, back, joined⟩ :=
    wraps.join blank isName regular content two near rest
  rw [field_of_join typed blank isName front back regular joined,
    field_of_join typed blank isName (Or.inl rfl) (Or.inl rfl) regular
      (join_oneLine blank isName context.wrapBound rest)]

def sampleHeader : Block := ["   arg2 (foo.bar.abc", "         .def.ghi,", "    optional):"]

theorem field_sampleHeader :
    Wraps "   " "arg2" "foo.bar.abc.def.ghi, optional" sampleHeader ∧
      IsName "arg2" ∧ IsTypeText "foo.bar.abc.def.ghi, optional" ∧
      (Parser.google.sectionContext Parser.google.parseLines).field named
          ⟨Registry.google, some 3⟩ ((sampleHeader ++ (["       Desc."] : Block)).map Text.trimEnd) =
        (Parser.google.sectionContext Parser.google.parseLines).field named
          ⟨Registry.google, some 3⟩
          ((["   arg2 (foo.bar.abc.def.ghi, optional):", "       Desc."] : Block).map
            Text.trimEnd) := by
  have layout : Layout "foo.bar.abc.def.ghi, optional" "foo.bar.abc" [".def.ghi,", "optional):"] :=
    .beforePoint "foo.bar.abc" (.atSpace ".def.ghi," (.closed "optional"))
  have wraps : Wraps "   " "arg2" "foo.bar.abc.def.ghi, optional" sampleHeader :=
    .insideType layout (by decide +kernel)
  have isName : IsName "arg2" :=
    ⟨0, "arg2", rfl, Nat.zero_le _, by decide, List.all_eq_true.mp (by decide +kernel)⟩
  have regular : IsTypeText "foo.bar.abc.def.ghi, optional" := by decide +kernel
  refine ⟨wraps, isName, regular, ?_⟩
  have near : sampleHeader.length ≤
      (Parser.google.sectionContext Parser.google.parseLines).wrapBound + 1 := by decide
  have typed : named.typed = true := rfl
  exact field_of_wraps typed (isMargin_spaces 3) isName regular wraps (by decide +kernel)
    (by decide) near ["       Desc."]

end SectionContext

end DocMarkup
