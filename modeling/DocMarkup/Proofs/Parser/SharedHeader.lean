import DocMarkup.Proofs.Field.SharedHeader
import DocMarkup.Proofs.Parser.Opening
import DocMarkup.Proofs.Section.Groups

namespace DocMarkup

open Text

namespace Entry

variable {scope : Scope} {block left : Block}

theorem readFrom_cons (bound : Option Nat) {header : Text} (content : header ≠ [])
    (whole : Wrapped.isStart header = false) (inside : scope.Contains header)
    (solid : ∀ line ∈ block ++ left, line.Solid)
    (below : ∀ line ∈ block, line.isBelow header.indent = true)
    (apart : ∀ line ∈ left.head?, line.isBelow header.indent = false) :
    readFrom scope bound (header :: (block ++ left)) =
      (⟨header, block⟩ :: (readFrom scope bound left).1, (readFrom scope bound left).2) := by
  have continues := inside (block ++ left)
  have stops : left.takeWhile (isBelow header.indent) = [] ∧
      left.dropWhile (isBelow header.indent) = left := by
    cases left with
    | nil => exact ⟨rfl, rfl⟩
    | cons line left => simp [apart line rfl]
  have taken : take scope bound (header :: (block ++ left)) = (⟨header, block⟩, left) := by
    rw [take_eq bound whole (Scope.holds_of_continues continues content) solid,
      List.takeWhile_append_of_pos below, List.dropWhile_append_of_pos below, stops.1, stops.2,
      List.append_nil]
  rw [readFrom, dif_neg (by rw [continues]; exact Bool.false_ne_true), taken]

theorem readFrom_headers (bound : Option Nat) {headers : List Text} {n : Nat}
    (content : ∀ header ∈ headers, header ≠ [] ∧ header.indent = n)
    (whole : ∀ header ∈ headers, Wrapped.isStart header = false)
    (inside : ∀ header ∈ headers, scope.Contains header)
    (solid : ∀ line ∈ headers.flatMap (· :: block) ++ left, line.Solid)
    (below : ∀ line ∈ block, line.isBelow n = true)
    (apart : ∀ line ∈ left.head?, line.isBelow n = false) :
    readFrom scope bound (headers.flatMap (· :: block) ++ left) =
      (headers.map (⟨·, block⟩) ++ (readFrom scope bound left).1,
        (readFrom scope bound left).2) := by
  induction headers with
  | nil => rfl
  | cons header headers ih =>
    obtain ⟨⟨filled, indent⟩, contents⟩ := List.forall_mem_cons.mp content
    obtain ⟨single, wholes⟩ := List.forall_mem_cons.mp whole
    obtain ⟨stays, insides⟩ := List.forall_mem_cons.mp inside
    have lines : (header :: headers).flatMap (· :: block) ++ left =
        header :: (block ++ (headers.flatMap (· :: block) ++ left)) := by simp
    rw [lines] at solid ⊢
    have others : ∀ line ∈ block ++ (headers.flatMap (· :: block) ++ left), line.Solid :=
      fun line member => solid line (List.mem_cons_of_mem _ member)
    have behind := ih contents wholes insides fun line member =>
      others line (List.mem_append_right _ member)
    -- The block ends at the next header, or at `left` behind the last one.
    have next : ∀ line ∈ (headers.flatMap (· :: block) ++ left).head?,
        line.isBelow header.indent = false := by
      rw [indent]
      cases headers with
      | nil => exact apart
      | cons other headers =>
        intro line member
        obtain rfl := Option.some.inj member
        obtain ⟨otherFilled, otherIndent⟩ := contents other List.mem_cons_self
        simp [isBelow, otherFilled, otherIndent]
    rw [readFrom_cons bound filled single stays others (by rwa [indent]) next, behind]
    rfl

end Entry

namespace SectionContext

variable (context : SectionContext) {margin : Text} {type? : Option Text} {block left : Block}

theorem fields_headers {headers : List Text} (nonempty : headers ≠ [])
    (content : ∀ header ∈ headers, header ≠ [] ∧ header.indent = margin.length)
    (whole : ∀ header ∈ headers, Wrapped.isStart header = false) (positive : 0 < margin.length)
    (solid : ∀ line ∈ headers.flatMap (· :: block) ++ left, line.Solid)
    (below : ∀ line ∈ block, line.isBelow margin.length = true)
    (apart : ∀ line ∈ left.head?, line.isBelow margin.length = false) (style : EntryStyle) :
    context.fields style (headers.flatMap (· :: block) ++ left) =
      ((Entry.readFrom ⟨context.registry, some margin.length⟩ (context.headerBound style)
        left).map (Field.ofEntries context.typeMarkup context.describe style) id).map
        ((headers.flatMap fun header => Field.separate style
          (Field.ofEntry context.typeMarkup context.describe style ⟨header, block⟩)) ++ ·) id := by
  obtain ⟨first, others, rfl⟩ := List.exists_cons_of_ne_nil nonempty
  obtain ⟨filled, indent⟩ := content first List.mem_cons_self
  have starts : Block.skipBlanks ((first :: others).flatMap (· :: block) ++ left) =
      (first :: others).flatMap (· :: block) ++ left := by simp [Block.skipBlanks, filled]
  have scope : context.scope ((first :: others).flatMap (· :: block) ++ left) =
      ⟨context.registry, some margin.length⟩ := by
    simp [SectionContext.scope, Block.leadingIndent, filled, indent]
  have inside : ∀ header ∈ first :: others,
      (⟨context.registry, some margin.length⟩ : Scope).Contains header := by
    intro header member
    have inBody : header ∈ (first :: others).flatMap (· :: block) ++ left :=
      List.mem_append_left _ (List.mem_flatMap.mpr ⟨header, member, List.mem_cons_self⟩)
    exact Scope.contains_of_indent positive (solid header inBody)
      fun _ => Nat.le_of_eq (content header member).2.symm
  have entries := Entry.readFrom_headers (context.headerBound style) content whole inside solid
    below apart
  rw [fields, Entry.read, starts, scope, entries]
  simp [Field.ofEntries, List.flatMap_map, Prod.map]

def headersOf (margin : Text) (groups : List (List Text)) (type? : Option Text) (text : Text) :
    List Text :=
  groups.map fun names => (sharedHeader margin names type? text).trimEnd

theorem fields_sharedHeaders {groups : List (List Text)} (nonempty : groups ≠ [])
    (filled : ∀ names ∈ groups, names ≠ [])
    (regular : ∀ names ∈ groups, ∀ name ∈ names, IsSharedName name)
    (typed : ∀ type ∈ type?, IsEnclosed type) (blank : margin.IsMargin)
    (positive : 0 < margin.length)
    (below : ∀ line ∈ block, line.trimEnd.isBelow margin.length = true)
    (apart : ∀ line ∈ left.head?, line.trimEnd.isBelow margin.length = false) (text : Text) :
    context.fields shared (((groups.flatMap fun names =>
        sharedHeader margin names type? text :: block) ++ left).map trimEnd) =
      ((Entry.readFrom ⟨context.registry, some margin.length⟩ (context.headerBound shared)
        (left.map trimEnd)).map (Field.ofEntries context.typeMarkup context.describe shared) id).map
          ((groups.flatten.map fun name =>
            { name := Field.escapeStars name
              type := context.typeMarkup.render ((type?.map trim).getD [])
              description := context.describe
                (text.trim :: Block.dedent (block.map trimEnd)) }) ++ ·) id := by
  have lines : ((groups.flatMap fun names => sharedHeader margin names type? text :: block) ++
      left).map trimEnd =
        (headersOf margin groups type? text).flatMap (· :: block.map trimEnd) ++
          left.map trimEnd := by
    simp [headersOf, List.map_flatMap, List.flatMap_map]
  have content : ∀ header ∈ headersOf margin groups type? text,
      header ≠ [] ∧ header.indent = margin.length := by
    intro header member
    obtain ⟨names, inside, rfl⟩ := List.mem_map.mp member
    refine ⟨?_, indent_sharedHeader (regular names inside) (filled names inside) blank text⟩
    rw [trimEnd_sharedHeader]
    simp
  have whole : ∀ header ∈ headersOf margin groups type? text,
      Wrapped.isStart header = false := by
    intro header member
    obtain ⟨names, -, rfl⟩ := List.mem_map.mp member
    rw [trimEnd_sharedHeader]
    exact Wrapped.isStart_of_colon (by simp)
  have solid : ∀ line ∈ (headersOf margin groups type? text).flatMap (· :: block.map trimEnd) ++
      left.map trimEnd, line.Solid := by
    rw [← lines]
    intro line member
    obtain ⟨raw, -, rfl⟩ := List.mem_map.mp member
    exact solid_trimEnd raw
  have fields := context.fields_headers (by simpa [headersOf] using nonempty) content whole positive
    solid (by simpa using below) (by simpa using apart) shared
  have separated : ((headersOf margin groups type? text).flatMap fun header => Field.separate shared
      (Field.ofEntry context.typeMarkup context.describe shared ⟨header, block.map trimEnd⟩)) =
        groups.flatten.map fun name =>
          { name := Field.escapeStars name
            type := context.typeMarkup.render ((type?.map trim).getD [])
            description := context.describe
              (text.trim :: Block.dedent (block.map trimEnd)) } := by
    rw [headersOf, List.flatMap_map, List.map_flatten, List.flatMap_def]
    refine congrArg List.flatten (List.map_congr_left fun names inside => ?_)
    exact separate_sharedHeader (regular names inside) typed (filled names inside) blank text _ _ _
  rw [lines, fields, separated]

theorem fields_sharedHeader {names : List Text} (nonempty : names ≠ [])
    (regular : ∀ name ∈ names, IsSharedName name) (typed : ∀ type ∈ type?, IsEnclosed type)
    (blank : margin.IsMargin) (positive : 0 < margin.length)
    (below : ∀ line ∈ block, line.trimEnd.isBelow margin.length = true)
    (apart : ∀ line ∈ left.head?, line.trimEnd.isBelow margin.length = false) (text : Text) :
    context.fields shared ((sharedHeader margin names type? text :: (block ++ left)).map trimEnd) =
      context.fields shared (((names.flatMap fun name =>
        sharedHeader margin [name] type? text :: block) ++ left).map trimEnd) := by
  have groups : names.map ([·]) ≠ [] := by simpa using nonempty
  have together := context.fields_sharedHeaders (List.cons_ne_nil names [])
    (by simpa using nonempty) (by simpa using regular) typed blank positive below apart text
  have separate := context.fields_sharedHeaders groups (by simp) (by simpa using regular) typed
    blank positive below apart text
  have same : (names.map ([·])).flatten = [names].flatten := by
    rw [← List.flatMap_def, List.flatMap_singleton', List.flatten_singleton]
  rw [same, ← together] at separate
  rw [List.flatMap_map] at separate
  simpa using separate.symm

end SectionContext

theorem leadingIndent_sharedHeader {margin : Text} {names : List Text} {type? : Option Text}
    (nonempty : names ≠ []) (regular : ∀ name ∈ names, IsSharedName name)
    (blank : margin.IsMargin) (text : Text) (lines : Block) :
    Block.leadingIndent ((sharedHeader margin names type? text :: lines).map trimEnd) =
      margin.length := by
  have content : (sharedHeader margin names type? text).trimEnd ≠ [] := by
    rw [trimEnd_sharedHeader]
    simp
  simp [Block.leadingIndent, content, indent_sharedHeader regular nonempty blank text]

namespace Parser

variable (parser : Parser)

/-- A section of parameters in which one entry names several is written as the section in which each
of them has an entry of its own, in this order and with a copy of the block. -/
theorem parseLines_sharedHeader {header margin text : Text} {names : List Text}
    {type? : Option Text} {block rest : Block} {strategy : Strategy}
    (opens : parser.registry.headerAt?
      ((header :: sharedHeader margin names type? text :: (block ++ rest)).map trimEnd) =
        some strategy)
    (paired : strategy = .params ∨ strategy = .keywordParams) (nonempty : names ≠ [])
    (regular : ∀ name ∈ names, IsSharedName name) (typed : ∀ type ∈ type?, IsEnclosed type)
    (blank : margin.IsMargin)
    (below : ∀ line ∈ block, line.trimEnd.isBelow margin.length = true)
    (apart : ∀ line ∈ rest.head?, line.trimEnd.isBelow margin.length = false) :
    parser.parseLines (header :: sharedHeader margin names type? text :: (block ++ rest)) =
      parser.parseLines (header ::
        ((names.flatMap fun name => sharedHeader margin [name] type? text :: block) ++ rest)) := by
  have together : Block.leadingIndent ((sharedHeader margin names type? text ::
      (block ++ rest)).map trimEnd) = margin.length :=
    leadingIndent_sharedHeader nonempty regular blank text _
  have separate : Block.leadingIndent (((names.flatMap fun name =>
      sharedHeader margin [name] type? text :: block) ++ rest).map trimEnd) = margin.length := by
    obtain ⟨first, others, rfl⟩ := List.exists_cons_of_ne_nil nonempty
    have single : ∀ name ∈ [first], IsSharedName name := by
      simpa using regular first List.mem_cons_self
    exact leadingIndent_sharedHeader (List.cons_ne_nil _ _) single blank text _
  have opens' : parser.registry.headerAt? ((header :: ((names.flatMap fun name =>
      sharedHeader margin [name] type? text :: block) ++ rest)).map trimEnd) = some strategy := by
    rw [← opens]
    exact Registry.headerAt?_congr (separate.trans together.symm)
  have positive : 0 < margin.length := by
    rw [← together]
    exact (Registry.indent_of_headerAt? opens).2
  have fields := (parser.sectionContext parser.parseLines).fields_sharedHeader nonempty regular
    typed blank positive below apart text
  rw [parser.parseLines_header opens, parser.parseLines_header opens', runAs, runAs]
  rcases paired with rfl | rfl
  · simp only [SectionContext.write, fields]
  · simp only [SectionContext.write, fields]

def sampleNames : List Text := ["a", "*args", "**kw"]

def sampleHeader (names : List Text) : Text :=
  sharedHeader "  " names (some " list of int ") "One: "

def sampleBlock : Block := ["    - two", "", "    As in::", "", "        f(x)", ""]

def sampleRest : Block := ["  z: Last."]

theorem parseLines_sampleNames :
    sampleHeader sampleNames = "  a, *args, **kw ( list of int ): One: ".toList ∧
      sampleHeader ["*args"] = "  *args ( list of int ): One: ".toList ∧
      google.parseLines ("Args:" :: sampleHeader sampleNames :: (sampleBlock ++ sampleRest)) =
        google.parseLines ("Args:" :: sampleHeader ["a"] :: (sampleBlock ++
          sampleHeader ["*args"] :: (sampleBlock ++
            sampleHeader ["**kw"] :: (sampleBlock ++ sampleRest)))) := by
  have opens : google.registry.headerAt?
      ((("Args:" : Text) :: sampleHeader sampleNames :: (sampleBlock ++ sampleRest)).map trimEnd) =
        some .params := by decide +kernel
  have regular : ∀ name ∈ sampleNames, IsSharedName name := by decide +kernel
  have typed : ∀ type ∈ (some " list of int " : Option Text), IsEnclosed type := by decide +kernel
  have below : ∀ line ∈ sampleBlock, line.trimEnd.isBelow (spaces 2).length = true := by
    decide +kernel
  have apart : ∀ line ∈ sampleRest.head?, line.trimEnd.isBelow (spaces 2).length = false := by
    decide +kernel
  have same := google.parseLines_sharedHeader opens (.inl rfl) (by decide) regular typed
    (isMargin_spaces 2) below apart
  have separate : (sampleNames.flatMap fun name => sampleHeader [name] :: sampleBlock) ++
      sampleRest = sampleHeader ["a"] :: (sampleBlock ++ sampleHeader ["*args"] :: (sampleBlock ++
        sampleHeader ["**kw"] :: (sampleBlock ++ sampleRest))) := by decide +kernel
  rw [← separate]
  exact ⟨by decide +kernel, by decide +kernel, same⟩

end Parser

end DocMarkup
