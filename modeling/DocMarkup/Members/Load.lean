import DocMarkup.Members.Basic
import DocMarkup.Outline.Cache

namespace DocMarkup

def ModuleMembers.load (tree : FileTree) (path : FilePath) : Except ReadError ModuleMembers :=
  (tree.readSource path).map ModuleMembers.ofSource

end DocMarkup
