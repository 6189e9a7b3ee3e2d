import DocMarkup.Parser

namespace DocMarkup

inductive SectionSpec where
  | fields (keywords : List Text) (label : Text)
  | returns (keywords : List Text) (label : Text) (requireType : Bool)
  | admonition (keywords : List Text) (directive : Text)
  | rubric (keywords : List Text)
  deriving DecidableEq

namespace SectionSpec

def keywords : SectionSpec → List Text
  | fields keywords _ | returns keywords _ _ | admonition keywords _ | rubric keywords => keywords

def strategy : SectionSpec → Strategy
  | fields _ label => .fields label
  | returns _ label requireType => .returnsLike label requireType
  | admonition _ directive => .admonition directive
  | rubric _ => .rubric

def register (spec : SectionSpec) (registry : Registry) : Except RegistryError Unit × Registry :=
  registry.register spec.keywords spec.strategy

/-- Registers one section after the other, up to the first that fails. -/
def registerAll : List SectionSpec → Registry → Except RegistryError Unit × Registry
  | [], registry => (.ok (), registry)
  | spec :: specs, registry =>
    match spec.register registry with
    | (.ok (), next) => registerAll specs next
    | (.error e, next) => (.error e, next)

end SectionSpec

abbrev NamesByKind := List (Text × List Text)

structure DocstringConfig where
  customSections : Bool := true
  legacyRoles : Bool := false
  maxWrappedTypeLines : Nat := Parser.defaultWrapBound
  typeAliases : TypeAliases := []
  sections : List SectionSpec := []
  autodocExcludes : Option NamesByKind := none
  autodocExcludeDefaults : Bool := false

structure GithubConfig where
  org : Text := []
  repo : Text := []
  branch : Text := []
  sourcePrefix : Text := []
  allowedModules : List Text := []
  sourceRoot : Option Text := none

structure Config where
  docstring : DocstringConfig := {}
  github : Option GithubConfig := none

namespace DocstringConfig

def baseRegistry (config : DocstringConfig) : Registry :=
  if config.customSections then Registry.extended else Registry.google

def registry (config : DocstringConfig) : Except RegistryError Registry :=
  match SectionSpec.registerAll config.sections config.baseRegistry with
  | (.ok (), registry) => .ok registry
  | (.error e, _) => .error e

def typeMarkup (config : DocstringConfig) : TypeMarkup where
  aliases := config.typeAliases
  roles := if config.legacyRoles then .bare else .qualified

end DocstringConfig

def Parser.ofConfig (config : DocstringConfig) : Except RegistryError Parser :=
  config.registry.map fun registry => ⟨registry, config.typeMarkup, config.maxWrappedTypeLines⟩

end DocMarkup
