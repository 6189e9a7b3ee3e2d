import DocMarkup.Config.Basic
import DocMarkup.Toml.Document

namespace DocMarkup.Toml.Value

def text? : Value → Option Text
  | string text => some text
  | _ => none

def boolean? : Value → Option Bool
  | boolean b => some b
  | _ => none

def natural? : Value → Option Nat
  | integer n => if n < 0 then none else some n.toNat
  | _ => none

def items? : Value → Option (List Value)
  | array items => some items
  | tables items => some (items.map (table .header))
  | _ => none

def dateTimeKey : Text := "$__toml_private_datetime"

def entries? : Value → Option Entries
  | table _ entries => some entries
  | dateTime text => some [(dateTimeKey, string text)]
  | _ => none

def texts? (value : Value) : Option (List Text) := value.items?.bind (·.mapM text?)

def mapOf? {α : Type} (decode : Value → Option α) (value : Value) : Option (List (Text × α)) :=
  value.entries?.bind (·.mapM fun (key, value) => (decode value).map fun a => (key, a))

def settings? (names : List Text) (value : Value) : Option Entries :=
  match value with
  | table _ entries =>
    if entries.all fun entry => names.contains entry.1 then some entries else none
  | _ => value.items?.map names.zip

end DocMarkup.Toml.Value

namespace DocMarkup

open Toml

namespace Toml.Entries

def required? {α : Type} (entries : Entries) (key : Text) (decode : Value → Option α) : Option α :=
  (entries.lookup key).bind decode

def setting? {α : Type} (entries : Entries) (key : Text) (decode : Value → Option α)
    (fallback : α) : Option α :=
  match entries.lookup key with
  | none => some fallback
  | some value => decode value

end Toml.Entries

namespace SectionSpec

def settingNames? (kind : Text) : Option (List Text) :=
  if kind = "fields" then some ["keywords", "label"]
  else if kind = "returns" then some ["keywords", "label", "require_type"]
  else if kind = "admonition" then some ["keywords", "directive"]
  else if kind = "rubric" then some ["keywords"]
  else none

def ofSettings? (kind : Text) (settings : Entries) : Option SectionSpec := do
  let keywords ← settings.required? "keywords" Value.texts?
  if kind = "fields" then
    return .fields keywords (← settings.required? "label" Value.text?)
  else if kind = "returns" then
    return .returns keywords (← settings.required? "label" Value.text?)
      (← settings.setting? "require_type" Value.boolean? false)
  else if kind = "admonition" then
    return .admonition keywords (← settings.required? "directive" Value.text?)
  else
    return .rubric keywords

def ofValue? (value : Value) : Option SectionSpec := do
  match value with
  | .table _ entries =>
    let kind ← Entries.required? entries "kind" Value.text?
    let names ← settingNames? kind
    ofSettings? kind (← value.settings? ("kind" :: names))
  | _ =>
    match ← value.items? with
    | [] => none
    | first :: rest =>
      let kind ← first.text?
      let names ← settingNames? kind
      if names.length < rest.length then none else ofSettings? kind (names.zip rest)

end SectionSpec

namespace DocstringConfig

def settingNames : List Text :=
  ["custom_sections", "legacy_roles", "max_wrapped_type_lines", "type_aliases", "sections",
    "autodoc_excludes", "autodoc_exclude_defaults"]

def ofValue? (value : Value) : Option DocstringConfig := do
  let settings ← value.settings? settingNames
  return {
    customSections := ← settings.setting? "custom_sections" Value.boolean? true
    legacyRoles := ← settings.setting? "legacy_roles" Value.boolean? false
    maxWrappedTypeLines :=
      ← settings.setting? "max_wrapped_type_lines" Value.natural? Parser.defaultWrapBound
    typeAliases := ← settings.setting? "type_aliases" (Value.mapOf? Value.text?) []
    sections :=
      ← settings.setting? "sections" (fun v => v.items?.bind (·.mapM SectionSpec.ofValue?)) []
    autodocExcludes :=
      ← settings.setting? "autodoc_excludes" (fun v => (v.mapOf? Value.texts?).map some) none
    autodocExcludeDefaults := ← settings.setting? "autodoc_exclude_defaults" Value.boolean? false }

end DocstringConfig

namespace GithubConfig

def settingNames : List Text :=
  ["org", "repo", "branch", "source_prefix", "allowed_modules", "source_root"]

def ofValue? (value : Value) : Option GithubConfig := do
  let settings ← value.settings? settingNames
  return {
    org := ← settings.setting? "org" Value.text? []
    repo := ← settings.setting? "repo" Value.text? []
    branch := ← settings.setting? "branch" Value.text? []
    sourcePrefix := ← settings.setting? "source_prefix" Value.text? []
    allowedModules := ← settings.setting? "allowed_modules" Value.texts? []
    sourceRoot := ← settings.setting? "source_root" (fun v => v.text?.map some) none }

end GithubConfig

namespace Config

def ofEntries? (entries : Entries) : Option Config := do
  let settings ← (Value.table .header entries).settings? ["docstring", "github"]
  return {
    docstring := ← settings.setting? "docstring" DocstringConfig.ofValue? {}
    github := ← settings.setting? "github" (fun v => (GithubConfig.ofValue? v).map some) none }

def ofToml? (text : Text) : Option Config := (Toml.entries? text).bind ofEntries?

end Config

end DocMarkup
