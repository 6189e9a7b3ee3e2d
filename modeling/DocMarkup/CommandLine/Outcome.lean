import DocMarkup.Config.Load
import DocMarkup.Output.Document

namespace DocMarkup.CommandLine

inductive Failure where
  | config (e : ConfigError)
  | registry (e : RegistryError)
  | format (e : UnknownFormat)
  | unreadableInput
  | noOutput
  | outputDirectory (path : FilePath) (cause : FileError)
  | badPattern (pattern : Text)
  | unwritable (path : FilePath) (cause : FileError)
  | unreadableModule (e : ReadError)
  | noModule (module : Text) (root : FilePath)

namespace Failure

def report : Failure → Text × Option FileError
  | config (.unreadable e) => (e.message, some e.cause)
  | config (.malformed path) => ("invalid configuration in " ++ path, none)
  | registry e => (e.message, none)
  | format e => (e.message, none)
  | unreadableInput => ("failed to read stdin", some .notText)
  | noOutput => ("--output is required when files are given", none)
  | outputDirectory path cause => ("failed to create output directory: " ++ path, some cause)
  | badPattern pattern => ("invalid glob pattern: " ++ pattern, none)
  | unwritable path cause => ("failed to write " ++ path, some cause)
  | unreadableModule e => (e.message, some e.cause)
  | noModule module root => ("module " ++ module ++ " not found under " ++ root, none)

def lines (failure : Failure) : List Text :=
  match failure.report with
  | (message, none) => ["Error: " ++ message]
  | (message, some cause) =>
    ["Error: " ++ message, "", "Caused by:", "    " ++ cause.message]

end Failure

structure Outcome where
  exitCode : Nat
  stdout : Text
  stderr : List Text
  tree : FileTree

namespace Outcome

def print (tree : FileTree) (stdout : Text) : Outcome := ⟨0, stdout, [], tree⟩

def fail (tree : FileTree) (warnings : List Text) (failure : Failure) : Outcome :=
  ⟨1, [], warnings ++ failure.lines, tree⟩

end Outcome

end DocMarkup.CommandLine
