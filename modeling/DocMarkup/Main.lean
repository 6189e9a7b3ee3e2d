import DocMarkup.CommandLine.Run

namespace DocMarkup.Program

def systemPath (place : Location) : String := String.ofList ("/" ++ Text.joinWith "/" place)

def locationOf (path : String) : Location := FilePath.namesFrom [] path.toList

partial def readAt (deep : Bool) (tree : FileTree) (place : Location) : IO FileTree := do
  let path := (← IO.currentDir) / systemPath place
  if ← path.isDir then
    let entries ← try path.readDir catch _ => pure #[]
    let mut tree := tree.install place .directory
    for entry in entries do
      let below := place ++ [entry.fileName.toList]
      if ← entry.path.isDir then
        tree ← if deep then readAt deep tree below else pure (tree.install below .directory)
      else
        tree ← readAt deep tree below
    return tree
  else
    try
      return tree.install place (.file (← IO.FS.readBinFile path))
    catch _ =>
      return tree

partial def readTowards (deep : Bool) (tree : FileTree) (place : Location) : IO FileTree := do
  if place.isEmpty then return tree
  if ← ((← IO.currentDir) / systemPath place).pathExists then readAt deep tree place
  else readTowards false tree place.dropLast

partial def readInput (input : IO.FS.Stream) (read : ByteArray) : IO ByteArray := do
  let chunk ← input.read 65536
  if chunk.isEmpty then return read else readInput input (read ++ chunk)

def writeBack (before after : FileTree) : IO Unit := do
  for (place, node) in after.nodes do
    if before.node? place != some node then
      let path := (← IO.currentDir) / systemPath place
      match node with
      | .directory => IO.FS.createDirAll path
      | .file content => IO.FS.writeBinFile path content

end DocMarkup.Program

open DocMarkup DocMarkup.Program

def main (args : List String) : IO UInt32 := do
  let arguments := args.map String.toList
  let here := locationOf (← IO.currentDir).toString
  let mut tree : FileTree := (⟨[], here⟩ : FileTree).install here .directory
  let mut input := ByteArray.empty
  if let .ok (.run path command) := CommandLine.requestOf arguments then
    tree ← readAt false tree (FilePath.namesFrom here (path.getD Config.fileName))
    let config := (Config.discover tree path).toOption.getD {}
    for path in command.paths config do
      tree ← readTowards true tree (FilePath.namesFrom here path)
    if let .render arguments := command then
      if arguments.files.isEmpty then input ← readInput (← IO.getStdin) .empty
  let outcome := CommandLine.run tree input arguments
  writeBack tree outcome.tree
  (← IO.getStdout).putStr (String.ofList outcome.stdout)
  for line in outcome.stderr do
    (← IO.getStderr).putStrLn (String.ofList line)
  return outcome.exitCode.toUInt32
