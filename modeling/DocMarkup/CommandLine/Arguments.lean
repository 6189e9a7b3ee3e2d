import DocMarkup.Files.Path

namespace DocMarkup.CommandLine

inductive OptionKind where
  | flag
  | text
  | path
  deriving DecidableEq

structure OptionSpec where
  long : Text
  short : Option Char
  kind : OptionKind
  repeatable : Bool
  deriving DecidableEq

inductive UsageError where
  | unknownOption (argument : Text)
  | missingValue (option : Text)
  | unexpectedValue (option : Text)
  | repeatedOption (option : Text)
  | emptyPath (option : Text)
  | unknownCommand (name : Text)
  | missingCommand
  | missingArgument (name : Text)
  | unexpectedArgument (argument : Text)
  deriving DecidableEq

def UsageError.message : UsageError → Text
  | unknownOption argument => "unexpected argument '" ++ argument ++ "'"
  | missingValue option => "a value is required for '--" ++ option ++ "'"
  | unexpectedValue option => "no value may be given for '--" ++ option ++ "'"
  | repeatedOption option => "'--" ++ option ++ "' cannot be used multiple times"
  | emptyPath option => "the value of '--" ++ option ++ "' must not be empty"
  | unknownCommand name => "unrecognized subcommand '" ++ name ++ "'"
  | missingCommand => "a subcommand is required"
  | missingArgument name => "the argument '" ++ name ++ "' is required"
  | unexpectedArgument argument => "unexpected argument '" ++ argument ++ "'"

structure Reading where
  found : List (Text × Text) := []
  positionals : List Text := []
  pending : Option OptionSpec := none

namespace Reading

def values (reading : Reading) (option : Text) : List Text :=
  (reading.found.filter (·.1 == option)).map (·.2)

def value? (reading : Reading) (option : Text) : Option Text := (reading.values option).head?

def has (reading : Reading) (option : Text) : Bool := (reading.value? option).isSome

def record (reading : Reading) (spec : OptionSpec) (value : Text) : Except UsageError Reading :=
  if !spec.repeatable && reading.has spec.long then .error (.repeatedOption spec.long)
  else if spec.kind = .path ∧ value.isEmpty then .error (.emptyPath spec.long)
  else .ok { reading with found := reading.found ++ [(spec.long, value)], pending := none }

def version : Text := "version"

def readLong (specs : List OptionSpec) (reading : Reading) (argument : Text) :
    Except UsageError Reading :=
  match specs.find? (·.long == argument.takeWhile (· != '=')) with
  | none => .error (.unknownOption argument)
  | some spec =>
    match argument.dropWhile (· != '='), spec.kind with
    | [], .flag => reading.record spec []
    | [], _ => .ok { reading with pending := some spec }
    | _ :: _, .flag => .error (.unexpectedValue spec.long)
    | _ :: value, _ => reading.record spec value

def readShort (specs : List OptionSpec) (reading : Reading) : Text → Except UsageError Reading
  | [] => .ok reading
  | c :: rest =>
    match specs.find? (·.short == some c) with
    | none => .error (.unknownOption (c :: rest))
    | some spec =>
      if spec.kind = .flag then do
        let reading ← reading.record spec []
        if spec.long = version then .ok reading else readShort specs reading rest
      else
        match rest with
        | [] => .ok { reading with pending := some spec }
        | '=' :: value => reading.record spec value
        | value => reading.record spec value

def isOption (argument : Text) : Bool := argument.head? == some '-' && argument != ['-']

def read (specs : List OptionSpec) (reading : Reading) (argument : Text) :
    Except UsageError Reading :=
  match reading.pending with
  | some spec =>
    if isOption argument then .error (.missingValue spec.long) else reading.record spec argument
  | none =>
    match argument with
    | '-' :: '-' :: name => readLong specs reading name
    | '-' :: c :: rest => readShort specs reading (c :: rest)
    | _ => .ok { reading with positionals := reading.positionals ++ [argument] }

def finish (reading : Reading) : Except UsageError Reading :=
  match reading.pending with
  | some spec => .error (.missingValue spec.long)
  | none => .ok reading

def readAll (specs : List OptionSpec) (reading : Reading) : List Text → Except UsageError Reading
  | [] => reading.finish
  | argument :: rest =>
    if argument = "--" then
      reading.finish.map fun reading =>
        { reading with positionals := reading.positionals ++ rest }
    else do
      let reading ← read specs reading argument
      readAll specs reading rest

end Reading

def flagOption (long : Text) (short : Option Char) : OptionSpec := ⟨long, short, .flag, false⟩

def textOption (long : Text) (short : Option Char) : OptionSpec := ⟨long, short, .text, false⟩

def pathOption (long : Text) (short : Option Char) : OptionSpec := ⟨long, short, .path, false⟩

def globalOptions : List OptionSpec :=
  [flagOption "verbose" (some 'v'), pathOption "config" (some 'c')]

def topOptions : List OptionSpec := globalOptions ++ [flagOption Reading.version (some 'V')]

def renderOptions : List OptionSpec :=
  globalOptions ++
    [pathOption "output" (some 'o'), textOption "format" (some 'f'),
      flagOption "no-custom-sections" none, flagOption "legacy-roles" none]

def linkOptions : List OptionSpec :=
  globalOptions ++
    [textOption "module" (some 'm'), textOption "domain" none, pathOption "root" none,
      textOption "org" none, textOption "repo" none, textOption "branch" none,
      textOption "source-prefix" none, ⟨"allow", none, .text, true⟩]

def memberOptions : List OptionSpec :=
  globalOptions ++
    [textOption "module" (some 'm'), textOption "what" none, pathOption "root" none]

structure RenderArguments where
  files : List Text
  output : Option FilePath
  format : Text
  noCustomSections : Bool
  legacyRoles : Bool

structure LinkArguments where
  fullName : Text
  module : Text
  domain : Text
  root : Option FilePath
  org : Option Text
  repo : Option Text
  branch : Option Text
  sourcePrefix : Option Text
  allowedModules : List Text

structure MemberArguments where
  names : List Text
  module : Text
  kind : Text
  root : Option FilePath

inductive Command where
  | render (arguments : RenderArguments)
  | link (arguments : LinkArguments)
  | members (arguments : MemberArguments)

inductive Request where
  | version
  | run (config : Option FilePath) (command : Command)

def requireModule (reading : Reading) : Except UsageError Text :=
  match reading.value? "module" with
  | some module => .ok module
  | none => .error (.missingArgument "--module <MODULE>")

def renderCommand (arguments : List Text) : Except UsageError (Reading × Command) := do
  let reading ← Reading.readAll renderOptions {} arguments
  return (reading, .render
    { files := reading.positionals
      output := reading.value? "output"
      format := (reading.value? "format").getD "rst"
      noCustomSections := reading.has "no-custom-sections"
      legacyRoles := reading.has "legacy-roles" })

def linkCommand (arguments : List Text) : Except UsageError (Reading × Command) := do
  let reading ← Reading.readAll linkOptions {} arguments
  match reading.positionals with
  | [] => .error (.missingArgument "<FULLNAME>")
  | _ :: other :: _ => .error (.unexpectedArgument other)
  | [fullName] =>
    let module ← requireModule reading
    return (reading, .link
      { fullName, module
        domain := (reading.value? "domain").getD "py"
        root := reading.value? "root"
        org := reading.value? "org"
        repo := reading.value? "repo"
        branch := reading.value? "branch"
        sourcePrefix := reading.value? "source-prefix"
        allowedModules := reading.values "allow" })

def memberCommand (arguments : List Text) : Except UsageError (Reading × Command) := do
  let reading ← Reading.readAll memberOptions {} arguments
  let module ← requireModule reading
  if reading.positionals.isEmpty then .error (.missingArgument "<NAMES>...")
  else
    return (reading, .members
      { names := reading.positionals
        module
        kind := (reading.value? "what").getD "module"
        root := reading.value? "root" })

def commandOf (name : Text) (arguments : List Text) : Except UsageError (Reading × Command) :=
  if name = "render" then renderCommand arguments
  else if name = "linkcode" then linkCommand arguments
  else if name = "members" then memberCommand arguments
  else .error (.unknownCommand name)

/-- What the arguments ask for, when some of them have been read. A configuration named behind the
command goes before one named in front of it. -/
def requestFrom (reading : Reading) : List Text → Except UsageError Request
  | [] => reading.finish.bind fun _ => .error .missingCommand
  | argument :: rest =>
    if argument = "--" then
      reading.finish.bind fun _ => .error (.unexpectedArgument argument)
    else if reading.pending.isNone && !Reading.isOption argument then do
      let (inner, command) ← commandOf argument rest
      return .run (inner.value? "config" <|> reading.value? "config") command
    else do
      let reading ← Reading.read topOptions reading argument
      if reading.has Reading.version then .ok .version else requestFrom reading rest

def requestOf (arguments : List Text) : Except UsageError Request := requestFrom {} arguments

end DocMarkup.CommandLine
