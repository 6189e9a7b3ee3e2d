import DocMarkup.Text.Basic

namespace DocMarkup

inductive Strategy where
  | fields (label : Text)
  | returnsLike (label : Text) (requireType : Bool)
  | admonition (directive : Text)
  | params
  | keywordParams
  | returns
  | raises
  | attributes
  | notice (directive : Text)
  | rubric
  deriving DecidableEq

end DocMarkup
