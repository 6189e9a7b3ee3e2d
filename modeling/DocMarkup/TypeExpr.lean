import DocMarkup.Text.Bracket

/-!
Type expressions of a docstring and the cross references they are written as. The first clause of
an expression names types, the clauses after it qualify them: `list of int, optional` has the type
tokens `list`, `of` and `int` and the suffix `optional`.
-/

namespace DocMarkup

inductive RoleStyle where
  | qualified
  | bare

namespace RoleStyle

def classRole : RoleStyle → Text
  | qualified => ":py:class:"
  | bare => ":class:"

def objectRole : RoleStyle → Text
  | qualified => ":py:obj:"
  | bare => ":obj:"

end RoleStyle

abbrev TypeAliases := List (Text × Text)

namespace TypeExpr

/-- The pieces between the separators outside brackets, when `depth` brackets are open. -/
def splitAtDepth (separates : Char → Bool) (depth : Nat) : Text → List Text
  | [] => [[]]
  | c :: rest =>
    if depth == 0 && separates c && !opensBracket c && !closesBracket c then
      [] :: splitAtDepth separates 0 rest
    else
      Text.consFirst c (splitAtDepth separates (bracketDepth depth c) rest)

def splitTopLevel (separates : Char → Bool) (expr : Text) : List Text :=
  splitAtDepth separates 0 expr

def clauses (expr : Text) : List Text := splitTopLevel (· == ',') expr

def tokens (expr : Text) : List Text :=
  (splitTopLevel isBlank ((clauses expr).headD [])).filter (· ≠ [])

def suffixes (expr : Text) : List Text :=
  ((clauses expr).tail.map Text.trim).filter (· ≠ [])

end TypeExpr

structure TypeMarkup where
  aliases : TypeAliases
  roles : RoleStyle

namespace TypeMarkup

def connectors : List Text := ["of", "or"]

def reference (role target : Text) : Text := role ++ "`" ++ target ++ "`"

/-- A connecting word stays, an alias gives its markup, and any other token becomes a reference. -/
def resolve (typeMarkup : TypeMarkup) (token : Text) : Text :=
  if connectors.contains token then token
  else
    match typeMarkup.aliases.lookup token with
    | some markup => markup
    | none =>
      if token = "None" then reference typeMarkup.roles.objectRole token
      else reference typeMarkup.roles.classRole token

def emphasizedSuffix (suffix : Text) : Text := ", *" ++ suffix ++ "*"

def render (typeMarkup : TypeMarkup) (expr : Text) : Text :=
  if expr.isEmpty then []
  else
    Text.joinWith " " ((TypeExpr.tokens expr).map typeMarkup.resolve) ++
      (TypeExpr.suffixes expr).flatMap emphasizedSuffix

end TypeMarkup

end DocMarkup
