import DocMarkup.Config.Decode
import DocMarkup.Outline.Cache

namespace DocMarkup

inductive ConfigError where
  | unreadable (e : ReadError)
  | malformed (path : FilePath)
  deriving DecidableEq

namespace Config

def fileName : Text := "docfield.toml"

def load (tree : FileTree) (path : FilePath) : Except ConfigError Config := do
  let text ← (tree.readSource path).mapError .unreadable
  match ofToml? text with
  | some config => return config
  | none => .error (.malformed path)

def discover (tree : FileTree) (path : Option FilePath) : Except ConfigError Config :=
  match path with
  | some path => load tree path
  | none =>
    let usual := FilePath.join ("/" ++ Text.joinWith "/" tree.workingDirectory) fileName
    if tree.isFile usual then load tree usual else .ok {}

end Config

end DocMarkup
