import DocMarkup.Files.Tree

/-!
Patterns for paths. In a component of a pattern a question mark stands for one character, a star for
any number, and brackets for one of a set or, with an exclamation mark, for one outside it. Two
stars as a whole component stand for directories at any depth.
-/

namespace DocMarkup

inductive PatternToken where
  | char (c : Char)
  | anyChar
  | anySequence
  | charSet (negated : Bool) (ranges : List (Char × Char))
  deriving DecidableEq

namespace PatternToken

def rangesOf : Text → List (Char × Char)
  | [] => []
  | a :: '-' :: b :: rest => (a, b) :: rangesOf rest
  | a :: rest => (a, a) :: rangesOf rest

def charSet? (text : Text) : Option (PatternToken × Text) :=
  let negated := text.head? == some '!'
  match if negated then text.tail else text with
  | [] => none
  | first :: rest =>
    match rest.dropWhile (· != ']') with
    | [] => none
    | _ :: behind =>
      some (.charSet negated (rangesOf (first :: rest.takeWhile (· != ']'))), behind)

def ofText? : Nat → Text → Option (List PatternToken)
  | 0, _ => none
  | _, [] => some []
  | fuel + 1, c :: rest =>
    if c == '?' then (ofText? fuel rest).map (.anyChar :: ·)
    else if c == '*' then
      if rest.head? == some '*' then none else (ofText? fuel rest).map (.anySequence :: ·)
    else if c == '[' then
      (charSet? rest).bind fun (token, behind) => (ofText? fuel behind).map (token :: ·)
    else (ofText? fuel rest).map (.char c :: ·)

def matchAll : List PatternToken → Text → Bool
  | [], name => name.isEmpty
  | .anySequence :: tokens, name =>
    (List.range (name.length + 1)).any fun n => matchAll tokens (name.drop n)
  | _ :: _, [] => false
  | .char c :: tokens, d :: name => c == d && matchAll tokens name
  | .anyChar :: tokens, _ :: name => matchAll tokens name
  | .charSet negated ranges :: tokens, d :: name =>
    (ranges.any fun (low, high) => low ≤ d && d ≤ high) != negated && matchAll tokens name

def literal? : List PatternToken → Option Text
  | [] => some []
  | .char c :: tokens => (literal? tokens).map (c :: ·)
  | _ :: _ => none

end PatternToken

inductive PatternPart where
  | literal (name : Text)
  | wild (tokens : List PatternToken)
  | anyDepth
  deriving DecidableEq

namespace PatternPart

def ofText? (component : Text) : Option PatternPart :=
  if component = "**" then some .anyDepth
  else
    (PatternToken.ofText? (component.length + 1) component).map fun tokens =>
      match PatternToken.literal? tokens with
      | some name => .literal name
      | none => .wild tokens

def accepts (name : Text) : PatternPart → Bool
  | literal text => text == name
  | wild tokens => PatternToken.matchAll tokens name
  | anyDepth => true

def collapse : List PatternPart → List PatternPart
  | .anyDepth :: .anyDepth :: rest => collapse (.anyDepth :: rest)
  | part :: rest => part :: collapse rest
  | [] => []

end PatternPart

structure PathPattern where
  start : FilePath
  parts : List PatternPart
  directoriesOnly : Bool

namespace PathPattern

def componentsOf (text : Text) : List Text :=
  match (FilePath.segments text).getLast? with
  | some [] => if text.isEmpty then [[]] else (FilePath.segments text).dropLast
  | _ => FilePath.segments text

def ofText? (text : Text) : Option PathPattern :=
  let absolute := FilePath.isAbsolute text
  ((componentsOf (if absolute then text.tail else text)).mapM PatternPart.ofText?).map fun parts =>
    { start := if absolute then "/" else "."
      parts := PatternPart.collapse parts
      directoriesOnly := text.getLast? == some '/' }

def inDirectory (path name : Text) : FilePath :=
  if FilePath.parts path = [.here] then name else FilePath.join path name

def descendants (tree : FileTree) (path : FilePath) : List FilePath :=
  match tree.locate path with
  | .error _ => []
  | .ok location =>
    tree.nodes.filterMap fun (place, _) =>
      if location.isPrefixOf place && place != location then
        some (inDirectory path (Text.joinWith "/" (place.drop location.length)))
      else none

/-- The names of a directory that a component stands for. The two points and the point belong to
them only if the component starts with a point; they come first. -/
def namesIn (tree : FileTree) (path : FilePath) (tokens : List PatternToken) : List FilePath :=
  let special : List Text := if tokens.head? = some (.char '.') then ["..", "."] else []
  (special.filter (PatternToken.matchAll tokens ·)).map (FilePath.join path ·) ++
    ((tree.list path).filter (PatternToken.matchAll tokens ·)).map (inDirectory path ·)

def leadsTo (tree : FileTree) (directory : FilePath) (name : Text) (path : FilePath) : Bool :=
  if name = "." ∨ name = ".." then tree.isDirectory directory else tree.hasNode path

def search (tree : FileTree) : List PatternPart → FilePath → List FilePath
  | [], path => [path]
  | .literal name :: rest, path =>
    let next := inDirectory path name
    if leadsTo tree path name next then search tree rest next else []
  | .wild tokens :: rest, path =>
    if tree.isDirectory path then (namesIn tree path tokens).flatMap (search tree rest) else []
  | [.anyDepth], path => (descendants tree path).filter tree.isDirectory
  | .anyDepth :: part :: rest, path =>
    ((descendants tree path).filter fun below =>
      ((FilePath.fileName? below).any fun name => part.accepts name)).flatMap (search tree rest)

def paths (pattern : PathPattern) (tree : FileTree) : List FilePath :=
  (search tree pattern.parts pattern.start).filter fun path =>
    !pattern.directoriesOnly || tree.isDirectory path

end PathPattern

end DocMarkup
