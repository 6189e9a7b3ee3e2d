import DocMarkup.Text.Basic

/-!
Paths of files. A path is a text; two paths are the same if their parts are, so doubled slashes,
slashes at the end and points inside a path do not count.
-/

namespace DocMarkup

inductive PathPart where
  | root
  | here
  | up
  | name (text : Text)
  deriving DecidableEq

namespace PathPart

def rank : PathPart → Nat
  | root => 0
  | here => 1
  | up => 2
  | name _ => 3

def text : PathPart → Text
  | root => "/"
  | here => "."
  | up => ".."
  | name text => text

def textLe : Text → Text → Bool
  | [], _ => true
  | _ :: _, [] => false
  | a :: as, b :: bs => a < b || (a == b && textLe as bs)

def le (a b : PathPart) : Bool :=
  a.rank < b.rank || (a.rank == b.rank && textLe a.text b.text)

end PathPart

abbrev FilePath := Text

namespace FilePath

def isAbsolute (path : FilePath) : Bool := path.head? == some '/'

def segments (path : FilePath) : List Text := path.splitOn '/'

def partOf? (segment : Text) : Option PathPart :=
  if segment = "" ∨ segment = "." then none
  else if segment = ".." then some .up
  else some (.name segment)

def parts (path : FilePath) : List PathPart :=
  let rest := (segments path).filterMap partOf?
  if isAbsolute path then .root :: rest
  else if (segments path).head? = some "." then .here :: rest
  else rest

def ofParts : List PathPart → FilePath
  | .root :: rest => "/" ++ Text.joinWith "/" (rest.map PathPart.text)
  | parts => Text.joinWith "/" (parts.map PathPart.text)

/-- The names that lead from the root to a path, when `base` leads to the directory that relative
paths start from. -/
def namesFrom (base : List Text) (path : FilePath) : List Text :=
  (parts path).foldl
    (fun names part =>
      match part with
      | .root => []
      | .here => names
      | .up => names.dropLast
      | .name text => names ++ [text])
    base

/-- A path seen from a directory. An absolute path stays as it is. -/
def join (directory path : FilePath) : FilePath :=
  if isAbsolute path || directory.isEmpty then path
  else if directory.getLast? == some '/' then directory ++ path
  else directory ++ "/" ++ path

def parent? (path : FilePath) : Option FilePath :=
  match (parts path).getLast? with
  | none | some .root => none
  | some _ => some (ofParts (parts path).dropLast)

def fileName? (path : FilePath) : Option Text :=
  match (parts path).getLast? with
  | some (.name text) => some text
  | _ => none

/-- A name cut at its last point, unless that is its first character or missing. -/
def splitName (name : Text) : Text × Option Text :=
  let extension := (name.reverse.takeWhile (· != '.')).reverse
  let stem := ((name.reverse.dropWhile (· != '.')).drop 1).reverse
  if stem.isEmpty then (name, none) else (stem, some extension)

def stem? (path : FilePath) : Option Text := (fileName? path).map fun name => (splitName name).1

def extension? (path : FilePath) : Option Text :=
  (fileName? path).bind fun name => (splitName name).2

def partsLe : List PathPart → List PathPart → Bool
  | [], _ => true
  | _ :: _, [] => false
  | a :: as, b :: bs => if a = b then partsLe as bs else a.le b

def le (a b : FilePath) : Bool := partsLe (parts a) (parts b)

/-- Paths in order, each once: of those with the same parts the first stays. -/
def sortUnique (paths : List FilePath) : List FilePath :=
  (paths.mergeSort le).foldr
    (fun path rest => path :: rest.dropWhile fun other => parts other = parts path) []

end FilePath

end DocMarkup
