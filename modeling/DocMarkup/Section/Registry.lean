import DocMarkup.Section.Strategy
import DocMarkup.Text.LowerCase

namespace DocMarkup

inductive RegistryError where
  | duplicate (key : Text)
  | emptyKeyword
  deriving DecidableEq

def RegistryError.message : RegistryError → Text
  | duplicate key => "section keyword `" ++ key ++ "` is already registered"
  | emptyKeyword => "section keyword must not be empty"

structure Registry where
  entries : List (Text × Strategy)
  /-- No key begins with a blank, so no indented line is a keyword. -/
  unindented : ∀ entry ∈ entries, Text.indent entry.1 = 0

namespace Registry

def empty : Registry := ⟨[], by simp⟩

def keyOf (keyword : Text) : Text := keyword.trim.lowerCase

theorem indent_keyOf (keyword : Text) : (keyOf keyword).indent = 0 := by
  rw [keyOf, Text.indent_lowerCase, Text.indent, Text.margin_trim, List.length_nil]

def hasKey (registry : Registry) (key : Text) : Bool := (registry.entries.lookup key).isSome

def get? (registry : Registry) (keyword : Text) : Option Strategy :=
  registry.entries.lookup keyword.lowerCase

def contains (registry : Registry) (keyword : Text) : Bool := (registry.get? keyword).isSome

/-- The keys of `keywords` if each is new and none is blank, or else what is wrong with the first
that is not. `taken` are the keys that the same call has claimed before. -/
def newKeys (registry : Registry) (taken : List Text) :
    List Text → Except RegistryError (List Text)
  | [] => .ok []
  | keyword :: rest =>
    let key := keyOf keyword
    if key.isEmpty then .error .emptyKeyword
    else if registry.hasKey key || taken.contains key then .error (.duplicate key)
    else (newKeys registry (key :: taken) rest).map (key :: ·)

def entriesFor (keywords : List Text) (strategy : Strategy) : List (Text × Strategy) :=
  keywords.map fun keyword => (keyword, strategy)

theorem eq_map_of_newKeys {registry : Registry} {taken keywords keys : List Text}
    (h : registry.newKeys taken keywords = .ok keys) : keys = keywords.map keyOf := by
  induction keywords generalizing taken keys with
  | nil =>
    cases h
    rfl
  | cons keyword rest ih =>
    simp only [newKeys] at h
    split at h
    · contradiction
    · split at h
      · contradiction
      · cases others : registry.newKeys (keyOf keyword :: taken) rest <;> rw [others] at h
        · contradiction
        · cases h
          rw [ih others, List.map_cons]

theorem unindented_append {registry : Registry} {keywords keys : List Text}
    (h : registry.newKeys [] keywords = .ok keys) (strategy : Strategy) :
    ∀ entry ∈ registry.entries ++ entriesFor keys strategy, Text.indent entry.1 = 0 := by
  intro entry member
  rcases List.mem_append.mp member with member | member
  · exact registry.unindented entry member
  · rw [eq_map_of_newKeys h] at member
    simp only [entriesFor, List.map_map, List.mem_map, Function.comp_apply] at member
    obtain ⟨keyword, -, rfl⟩ := member
    exact indent_keyOf keyword

/-- Gives all the keywords one strategy, or none of them: they are all looked at before the first is
added. -/
def register (registry : Registry) (keywords : List Text) (strategy : Strategy) :
    Except RegistryError Unit × Registry :=
  match claimed : registry.newKeys [] keywords with
  | .error e => (.error e, registry)
  | .ok keys =>
    (.ok (), ⟨registry.entries ++ entriesFor keys strategy, unindented_append claimed strategy⟩)

def paramKeywords : List Text := ["args", "arguments", "parameters", "params"]

def keywordParamKeywords : List Text := ["keyword args", "keyword arguments", "kwargs"]

def returnKeywords : List Text := ["return", "returns"]

def yieldKeywords : List Text := ["yield", "yields"]

def raiseKeywords : List Text := ["raise", "raises", "exception", "exceptions"]

def rubricKeywords : List Text := ["example", "examples", "references"]

def noticeDirectives : List (Text × Text) :=
  [("attention", "attention"), ("caution", "caution"), ("danger", "danger"), ("error", "error"),
    ("hint", "hint"), ("important", "important"), ("note", "note"), ("notes", "note"),
    ("see also", "seealso"), ("tip", "tip"), ("todo", "todo"), ("warning", "warning"),
    ("warnings", "warning"), ("warn", "warning")]

def noticeSections : List (Text × Strategy) :=
  noticeDirectives.map fun (keyword, directive) => (keyword, .notice directive)

def google : Registry where
  entries :=
    entriesFor paramKeywords .params ++
    entriesFor keywordParamKeywords .keywordParams ++
    entriesFor returnKeywords .returns ++
    entriesFor yieldKeywords (.returnsLike "Yields" false) ++
    entriesFor raiseKeywords .raises ++
    entriesFor rubricKeywords .rubric ++
    noticeSections ++
    entriesFor ["attributes"] .attributes ++
    entriesFor ["other parameters"] (.fields "Other Parameters")
  unindented := by decide

def customSections : List (Text × Strategy) :=
  [("context", .returnsLike "Context" false), ("type", .returnsLike "Type" true),
    ("keys", .fields "Keys"), ("model attributes", .fields "Model Attributes"),
    ("option args", .fields "Option Args"), ("tuple", .fields "Tuple"),
    ("deprecated", .admonition "deprecated"), ("version added", .admonition "versionadded"),
    ("version changed", .admonition "versionchanged")]

def extended : Registry := ⟨google.entries ++ customSections, by decide⟩

end Registry

end DocMarkup
