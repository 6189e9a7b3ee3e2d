import DocMarkup.CommandLine.Arguments
import DocMarkup.CommandLine.Outcome
import DocMarkup.Files.Pattern
import DocMarkup.Members.Load
import DocMarkup.SourceLink

namespace DocMarkup.CommandLine

def RenderArguments.configure (arguments : RenderArguments) (config : DocstringConfig) :
    DocstringConfig :=
  { config with
    customSections := config.customSections && !arguments.noCustomSections
    legacyRoles := config.legacyRoles || arguments.legacyRoles }

def inputExtension : Text := "txt"

def filesIn (tree : FileTree) (directory : FilePath) : List FilePath :=
  ((tree.list directory).map (FilePath.join directory ·)).filter fun path =>
    FilePath.extension? path == some inputExtension && tree.isFile path

def filesOf (tree : FileTree) (argument : Text) : Except Failure (List FilePath) :=
  if tree.isFile argument then .ok [argument]
  else if tree.isDirectory argument then .ok (filesIn tree argument)
  else
    match PathPattern.ofText? argument with
    | none => .error (.badPattern argument)
    | some pattern => .ok ((pattern.paths tree).filter tree.isFile)

def isUnmatched (tree : FileTree) (argument : Text) (files : List FilePath) : Bool :=
  files.isEmpty && !tree.isDirectory argument

def collect (tree : FileTree) : List Text → List Text × Except Failure (List FilePath)
  | [] => ([], .ok [])
  | argument :: rest =>
    match filesOf tree argument with
    | .error failure => ([], .error failure)
    | .ok files =>
      let (warnings, others) := collect tree rest
      ((if isUnmatched tree argument files then ["warning: no files matched: " ++ argument] else [])
          ++ warnings,
        others.map (files ++ ·))

def outputName (path : FilePath) (format : OutputFormat) : Text :=
  (FilePath.stem? path).getD path ++ "." ++ format.extension

/-- Writes out files one after the other into a directory. A file that cannot be read is skipped. -/
def renderFiles (parser : Parser) (format : OutputFormat) (output : FilePath) (tree : FileTree)
    (warnings : List Text) : List FilePath → Outcome
  | [] => ⟨0, [], warnings, tree⟩
  | path :: rest =>
    match tree.read path with
    | .error e =>
      renderFiles parser format output tree
        (warnings ++ ["warning: skipping " ++ path ++ ": " ++ e.message]) rest
    | .ok text =>
      let document : Document := ⟨some path, parser.parse text⟩
      let target := FilePath.join output (outputName path format)
      match tree.write target (encodeText (document.render format)) with
      | .error e => .fail tree warnings (.unwritable target e)
      | .ok tree => renderFiles parser format output tree warnings rest

def renderInput (parser : Parser) (format : OutputFormat) (tree : FileTree) (input : ByteArray) :
    Outcome :=
  match decodeText? input with
  | none => .fail tree [] .unreadableInput
  | some text => .print tree ((⟨none, parser.parse text⟩ : Document).render format)

def renderInto (parser : Parser) (format : OutputFormat) (tree : FileTree)
    (arguments : RenderArguments) : Outcome :=
  match arguments.output with
  | none => .fail tree [] .noOutput
  | some output =>
    match tree.createDirectories output with
    | .error e => .fail tree [] (.outputDirectory output e)
    | .ok tree =>
      match collect tree arguments.files with
      | (warnings, .error failure) => .fail tree warnings failure
      | (warnings, .ok files) =>
        renderFiles parser format output tree warnings (FilePath.sortUnique files)

def render (tree : FileTree) (input : ByteArray) (config : Config) (arguments : RenderArguments) :
    Outcome :=
  match Parser.ofConfig (arguments.configure config.docstring) with
  | .error e => .fail tree [] (.registry e)
  | .ok parser =>
    match OutputFormat.ofName arguments.format with
    | .error e => .fail tree [] (.format e)
    | .ok format =>
      if arguments.files.isEmpty then renderInput parser format tree input
      else renderInto parser format tree arguments

def defaultRoot : FilePath := "."

def LinkArguments.configure (arguments : LinkArguments) (config : GithubConfig) : GithubConfig :=
  { config with
    org := arguments.org.getD config.org
    repo := arguments.repo.getD config.repo
    branch := arguments.branch.getD config.branch
    sourcePrefix := arguments.sourcePrefix.getD config.sourcePrefix
    allowedModules :=
      if arguments.allowedModules.isEmpty then config.allowedModules else arguments.allowedModules }

def link (tree : FileTree) (config : Config) (arguments : LinkArguments) : Outcome :=
  let github := arguments.configure (config.github.getD {})
  let root := (arguments.root <|> github.sourceRoot).getD defaultRoot
  let linker := SourceLinker.ofConfig github root
  match (linker.resolve tree arguments.domain arguments.module arguments.fullName).1 with
  | some url => .print tree (url ++ "\n")
  | none =>
    ⟨1, [], ["no source link for " ++ arguments.module ++ "." ++ arguments.fullName], tree⟩

def members (tree : FileTree) (config : Config) (arguments : MemberArguments) : Outcome :=
  let configured := config.github.bind (·.sourceRoot)
  let root := (arguments.root <|> configured).getD defaultRoot
  match moduleFile? tree root arguments.module with
  | none => .fail tree [] (.noModule arguments.module root)
  | some (path, _) =>
    match ModuleMembers.load tree path with
    | .error e => .fail tree [] (.unreadableModule e)
    | .ok members =>
      let table := ExcludeTable.ofConfig config.docstring
      .print tree <| arguments.names.flatMap fun name =>
        (if skipsMember members table arguments.kind name false then "skip " else "keep ") ++
          name ++ "\n"

def fixedPart (path : FilePath) : FilePath :=
  let isWild (part : PathPart) : Bool := part.text.any fun c => c == '*' || c == '?' || c == '['
  FilePath.ofParts ((FilePath.parts path).takeWhile (!isWild ·))

def Command.paths (config : Config) : Command → List FilePath
  | .render arguments => arguments.output.toList ++ arguments.files.flatMap fun file =>
      [file, fixedPart file]
  | .link arguments =>
    modulePaths ((arguments.root <|> config.github.bind (·.sourceRoot)).getD defaultRoot)
      arguments.module
  | .members arguments =>
    modulePaths ((arguments.root <|> config.github.bind (·.sourceRoot)).getD defaultRoot)
      arguments.module

def versionLine : Text := "docfield 0.1.0\n"

def Command.run (tree : FileTree) (input : ByteArray) (config : Config) : Command → Outcome
  | .render arguments => CommandLine.render tree input config arguments
  | .link arguments => CommandLine.link tree config arguments
  | .members arguments => CommandLine.members tree config arguments

def run (tree : FileTree) (input : ByteArray) (arguments : List Text) : Outcome :=
  match requestOf arguments with
  | .error e => ⟨2, [], ["error: " ++ e.message], tree⟩
  | .ok .version => .print tree versionLine
  | .ok (.run path command) =>
    match Config.discover tree path with
    | .error e => .fail tree [] (.config e)
    | .ok config => command.run tree input config

end DocMarkup.CommandLine
