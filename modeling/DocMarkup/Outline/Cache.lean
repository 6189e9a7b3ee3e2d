import DocMarkup.Files.Tree
import DocMarkup.Outline.Basic

namespace DocMarkup

structure ReadError where
  path : FilePath
  cause : FileError
  deriving DecidableEq

def ReadError.message (e : ReadError) : Text :=
  "failed to read " ++ e.path ++ ": " ++ e.cause.message

def FileTree.readSource (tree : FileTree) (path : FilePath) : Except ReadError Text :=
  (tree.read path).mapError fun cause => ⟨path, cause⟩

structure OutlineCache where
  capacity : Nat
  /-- The outlines by the parts of their paths, the one used last in front. -/
  entries : List (List PathPart × Outline)

namespace OutlineCache

def defaultCapacity : Nat := 5

def ofCapacity (capacity : Nat) : OutlineCache := ⟨max capacity 1, []⟩

def size (cache : OutlineCache) : Nat := cache.entries.length

def isEmpty (cache : OutlineCache) : Bool := cache.entries.isEmpty

def clear (cache : OutlineCache) : OutlineCache := { cache with entries := [] }

def promote (cache : OutlineCache) (key : List PathPart) (outline : Outline) : OutlineCache :=
  { cache with entries := (key, outline) :: cache.entries.eraseP (·.1 == key) }

/-- The cache with a new outline in front; the one used longest ago gives way if it is full. -/
def insert (cache : OutlineCache) (key : List PathPart) (outline : Outline) : OutlineCache :=
  { cache with entries := (key, outline) :: cache.entries.take (cache.capacity - 1) }

def load (cache : OutlineCache) (tree : FileTree) (path : FilePath) :
    Except ReadError Outline × OutlineCache :=
  let key := FilePath.parts path
  match cache.entries.lookup key with
  | some outline => (.ok outline, cache.promote key outline)
  | none =>
    match tree.readSource path with
    | .ok source =>
      let outline := Outline.ofSource source
      (.ok outline, cache.insert key outline)
    | .error e => (.error e, cache)

end OutlineCache

end DocMarkup
