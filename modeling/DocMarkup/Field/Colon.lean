import DocMarkup.Field.Markup

/-!
The colon that ends the head of an entry: the first one that stands outside markup and has no colon
beside it. Only neighbours outside markup count, so a colon that touches a role reference is single.
-/

namespace DocMarkup

namespace Piece

def isColon : Piece → Bool
  | plain ':' => true
  | _ => false

theorem isColon_plain (c : Char) : isColon (plain c) = (c == ':') := by
  by_cases colon : c = ':'
  · rw [colon]
    rfl
  · rw [beq_false_of_ne colon]
    unfold isColon
    split
    · rename_i same
      cases same
      exact absurd rfl colon
    · rfl

def splitFrom (afterColon : Bool) : List Piece → Option (Text × Text)
  | [] => none
  | piece :: rest =>
    if piece.isColon && !afterColon && !(rest.head?.any isColon) then some ([], textOf rest)
    else (splitFrom piece.isColon rest).map fun (before, after) => (piece.text ++ before, after)

end Piece

namespace Text

def splitColon? (line : Text) : Option (Text × Text) :=
  (Piece.splitFrom false (Markup.pieces line)).map fun (before, after) =>
    (trim before, trim after)

end Text

end DocMarkup
