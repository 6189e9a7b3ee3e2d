import DocMarkup.Field.Colon
import DocMarkup.Field.Entry
import DocMarkup.Field.Typed
import DocMarkup.TypeExpr

namespace DocMarkup

structure Field where
  name : Text
  type : Text
  description : Block

structure EntryStyle where
  typed : Bool
  prefersType : Bool
  shared : Bool

namespace Field

def escapeStars : Text → Text
  | '*' :: '*' :: rest => "\\*\\*" ++ rest
  | '*' :: rest => "\\*" ++ rest
  | name => name

def nameAndType (style : EntryStyle) (head : Text) : Text × Text :=
  let (name, type) :=
    match if style.typed then head.splitTyped? else none with
    | some (name, type) => (name.trim, type)
    | none => (head, [])
  if style.prefersType && type.isEmpty then (type, name) else (name, type)

def headAndText (header : Text) : Text × Text :=
  match header.splitColon? with
  | some (before, after) => (before, after)
  | none => (header.trim, [])

def ofEntry (typeMarkup : TypeMarkup) (describe : Block → Block) (style : EntryStyle)
    (entry : Entry) : Field :=
  let (head, text) := headAndText entry.header
  let (name, type) := nameAndType style head
  { name
    type := if style.typed then typeMarkup.render type else type
    description := describe (text :: Block.dedent entry.block) }

/-- One field for each name, or the field alone if names are not shared. A field that says nothing
is left out. -/
def separate (style : EntryStyle) (field : Field) : List Field :=
  if style.shared && !field.name.isEmpty then
    (field.name.splitOn ',').map fun name => { field with name := escapeStars (Text.trim name) }
  else if field.name.isEmpty && field.type.isEmpty && field.description.isEmpty then []
  else [{ field with name := escapeStars field.name }]

def ofEntries (typeMarkup : TypeMarkup) (describe : Block → Block) (style : EntryStyle)
    (entries : List Entry) : List Field :=
  entries.flatMap fun entry => separate style (ofEntry typeMarkup describe style entry)

/-- The nameless field of a section that holds one description. A colon in the first line ends a
type. -/
def ofBody? (typeMarkup : TypeMarkup) (describe : Block → Block) : Block → Option Field
  | [] => none
  | first :: rest =>
    let (type, lines) :=
      match first.splitColon? with
      | some (before, after) => (before, if after.isEmpty then rest else after :: rest)
      | none => ([], first :: rest)
    some
      { name := []
        type := typeMarkup.render type
        description := describe (Block.dedent lines) }

end Field

end DocMarkup
