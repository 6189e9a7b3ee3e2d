import DocMarkup.Config.Basic
import DocMarkup.Outline.Cache

namespace DocMarkup

def relativeModulePaths (module : Text) : List FilePath :=
  let base := module.map fun c => if c == '.' then '/' else c
  [base ++ ".py", base ++ "/__init__.py"]

def modulePaths (root : FilePath) (module : Text) : List FilePath :=
  (relativeModulePaths module).map (FilePath.join root ·)

def moduleFile? (tree : FileTree) (root : FilePath) (module : Text) : Option (FilePath × Text) :=
  ((modulePaths root module).zip (relativeModulePaths module)).find? fun (path, _) =>
    tree.isFile path

structure SourceLinker where
  config : GithubConfig
  root : FilePath
  cache : OutlineCache

namespace SourceLinker

def ofConfig (config : GithubConfig) (root : FilePath) : SourceLinker :=
  ⟨config, root, OutlineCache.ofCapacity OutlineCache.defaultCapacity⟩

def clear (linker : SourceLinker) : SourceLinker := { linker with cache := linker.cache.clear }

def allows (config : GithubConfig) (module : Text) : Bool :=
  config.allowedModules.isEmpty ||
    config.allowedModules.contains (module.takeWhile (· != '.'))

def url (config : GithubConfig) (path : Text) (line : Nat) : Text :=
  "https://github.com/" ++ config.org ++ "/" ++ config.repo ++ "/blob/" ++ config.branch ++ "/" ++
    config.sourcePrefix ++ path ++ "#L" ++ Nat.toDigits 10 line

def resolve (linker : SourceLinker) (tree : FileTree) (domain module fullName : Text) :
    Option Text × SourceLinker :=
  if domain ≠ "py" ∨ module.isEmpty ∨ !allows linker.config module then (none, linker)
  else
    match moduleFile? tree linker.root module with
    | none => (none, linker)
    | some (file, path) =>
      match linker.cache.load tree file with
      | (.error _, cache) => (none, { linker with cache })
      | (.ok outline, cache) =>
        ((outline.find? (Outline.pathOf fullName)).map fun node => url linker.config path node.line,
          { linker with cache })

end SourceLinker

end DocMarkup
