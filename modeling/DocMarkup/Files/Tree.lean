import DocMarkup.Files.Path

namespace DocMarkup

inductive FileError where
  | notFound
  | alreadyExists
  | notDirectory
  | isDirectory
  | nameTooLong
  | invalidName
  | notText
  deriving DecidableEq

def FileError.message : FileError → Text
  | notFound => "No such file or directory (os error 2)"
  | alreadyExists => "File exists (os error 17)"
  | notDirectory => "Not a directory (os error 20)"
  | isDirectory => "Is a directory (os error 21)"
  | nameTooLong => "File name too long (os error 36)"
  | invalidName => "file name contained an unexpected NUL byte"
  | notText => "stream did not contain valid UTF-8"

inductive FileNode where
  | file (content : ByteArray)
  | directory

instance : DecidableEq FileNode
  | .file content, .file content' =>
    match ByteArray.instDecidableEq content content' with
    | .isTrue same => .isTrue (congrArg _ same)
    | .isFalse differ => .isFalse fun same => differ (FileNode.file.inj same)
  | .directory, .directory => .isTrue rfl
  | .file _, .directory => .isFalse fun same => FileNode.noConfusion same
  | .directory, .file _ => .isFalse fun same => FileNode.noConfusion same

abbrev Location := List Text

structure FileTree where
  nodes : List (Location × FileNode)
  workingDirectory : Location

def encodeText (text : Text) : ByteArray := (String.ofList text).toUTF8

def decodeText? (bytes : ByteArray) : Option Text := (String.fromUTF8? bytes).map String.toList

namespace FileTree

def maxNameLength : Nat := 255

def maxPathLength : Nat := 4095

def node? (tree : FileTree) : Location → Option FileNode
  | [] => some .directory
  | location => tree.nodes.lookup location

def isDirectoryAt (tree : FileTree) (location : Location) : Bool :=
  tree.node? location == some .directory

def set (tree : FileTree) (location : Location) (node : FileNode) : FileTree :=
  { tree with nodes := tree.nodes.filter (fun entry => entry.1 != location) ++ [(location, node)] }

def remove (tree : FileTree) (location : Location) : FileTree :=
  { tree with nodes := tree.nodes.filter fun entry => !location.isPrefixOf entry.1 }

def install (tree : FileTree) (location : Location) (node : FileNode) : FileTree :=
  let above := (List.range location.length).map location.take
  (above.foldl
    (fun tree place => if (tree.node? place).isSome then tree else tree.set place .directory)
    tree).set location node

def children (tree : FileTree) (location : Location) : List Text :=
  tree.nodes.filterMap fun entry =>
    if entry.1.dropLast = location then entry.1.getLast? else none

def follow (tree : FileTree) (location : Location) : List Text → Except FileError Location
  | [] => .ok location
  | segment :: rest =>
    if !tree.isDirectoryAt location then .error .notDirectory
    else if segment = "" ∨ segment = "." then follow tree location rest
    else if segment = ".." then follow tree location.dropLast rest
    else if maxNameLength < Text.byteLength segment then .error .nameTooLong
    else if (tree.node? (location ++ [segment])).isNone then .error .notFound
    else follow tree (location ++ [segment]) rest

def origin (tree : FileTree) (path : FilePath) : Location :=
  if FilePath.isAbsolute path then [] else tree.workingDirectory

def refuse (path : FilePath) : Except FileError Unit :=
  if path.isEmpty then .error .notFound
  else if path.contains '\x00' then .error .invalidName
  else if maxPathLength < Text.byteLength path then .error .nameTooLong
  else .ok ()

def locate (tree : FileTree) (path : FilePath) : Except FileError Location := do
  refuse path
  tree.follow (tree.origin path) (FilePath.segments path)

def nodeAt? (tree : FileTree) (path : FilePath) : Option FileNode :=
  match tree.locate path with
  | .ok location => tree.node? location
  | .error _ => none

def isDirectory (tree : FileTree) (path : FilePath) : Bool := tree.nodeAt? path == some .directory

def isFile (tree : FileTree) (path : FilePath) : Bool :=
  match tree.nodeAt? path with
  | some (.file _) => true
  | _ => false

def hasNode (tree : FileTree) (path : FilePath) : Bool := (tree.nodeAt? path).isSome

def read (tree : FileTree) (path : FilePath) : Except FileError Text := do
  let location ← tree.locate path
  match tree.node? location with
  | none => .error .notFound
  | some .directory => .error .isDirectory
  | some (.file content) =>
    match decodeText? content with
    | some text => .ok text
    | none => .error .notText

def list (tree : FileTree) (path : FilePath) : List Text :=
  match tree.locate path with
  | .ok location => if tree.isDirectoryAt location then tree.children location else []
  | .error _ => []

/-- The directory in which the last segment is a name to be made, and that name. There is no name if
the last segment stands for a directory. -/
def site (tree : FileTree) (path : FilePath) (segments : List Text) :
    Except FileError (Location × Option Text) := do
  refuse path
  let directory ← tree.follow (tree.origin path) segments.dropLast
  if !tree.isDirectoryAt directory then .error .notDirectory
  else
    let name := segments.getLastD []
    if name = "" ∨ name = "." ∨ name = ".." then .ok (directory, none)
    else if maxNameLength < Text.byteLength name then .error .nameTooLong
    else .ok (directory, some name)

def write (tree : FileTree) (path : FilePath) (content : ByteArray) :
    Except FileError FileTree := do
  match ← tree.site path (FilePath.segments path) with
  | (_, none) => .error .isDirectory
  | (directory, some name) =>
    if tree.isDirectoryAt (directory ++ [name]) then .error .isDirectory
    else .ok (tree.set (directory ++ [name]) (.file content))

def createDirectory (tree : FileTree) (path : FilePath) : Except FileError FileTree := do
  let segments := ((FilePath.segments path).reverse.dropWhile (·.isEmpty)).reverse
  match ← tree.site path segments with
  | (_, none) => .error .alreadyExists
  | (directory, some name) =>
    if (tree.node? (directory ++ [name])).isSome then .error .alreadyExists
    else .ok (tree.set (directory ++ [name]) .directory)

def keepDirectory (tree : FileTree) (path : FilePath) (e : FileError) : Except FileError FileTree :=
  if tree.isDirectory path then .ok tree else .error e

/-- The tree after a directory and up to `depth` missing ones above it have been made. -/
def createWithin (tree : FileTree) : Nat → FilePath → Except FileError FileTree
  | 0, _ => .error .notFound
  | depth + 1, path =>
    if path.isEmpty then .ok tree
    else
      match tree.createDirectory path, FilePath.parent? path with
      | .ok tree, _ => .ok tree
      | .error .notFound, some parent => do
        let above ← tree.createWithin depth parent
        match above.createDirectory path with
        | .ok tree => .ok tree
        | .error e => above.keepDirectory path e
      | .error e, _ => tree.keepDirectory path e

def createDirectories (tree : FileTree) (path : FilePath) : Except FileError FileTree :=
  tree.createWithin ((FilePath.parts path).length + 1) path

end FileTree

end DocMarkup
