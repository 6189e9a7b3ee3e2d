import DocMarkup.Config.Basic
import DocMarkup.Members.StringList
import DocMarkup.Outline.Basic

namespace DocMarkup

structure ExcludeTable where
  rows : NamesByKind

namespace ExcludeTable

def anyKind : Text := "*"

def defaultNames : List Text := ["__dict__", "__doc__", "__module__", "__weakref__"]

def empty : ExcludeTable := ⟨[]⟩

def insert (table : ExcludeTable) (kind : Text) (names : List Text) : ExcludeTable :=
  ⟨table.rows ++ [(kind, names)]⟩

def defaults : ExcludeTable := empty.insert anyKind defaultNames

def excludes (table : ExcludeTable) (kind name : Text) : Bool :=
  table.rows.any fun row => (row.1 == kind || row.1 == anyKind) && row.2.contains name

def isEmpty (table : ExcludeTable) : Bool := table.rows.all fun row => row.2.isEmpty

def ofConfig (config : DocstringConfig) : ExcludeTable :=
  match config.autodocExcludes with
  | none => defaults
  | some rows =>
    rows.foldl (fun table (kind, names) => table.insert kind names)
      (if config.autodocExcludeDefaults then defaults else empty)

end ExcludeTable

structure ModuleMembers where
  excludes : List Text
  deprecated : List Text

namespace ModuleMembers

def nameValue? (value : Text) : Option Text :=
  match StatementKind.leadingIdentifier? value.trimStart with
  | none => none
  | some name =>
    match Text.trimStart (value.trimStart.drop name.length) with
    | [] => some name
    | c :: _ => if c == '#' then some name else none

def assigns (name : Text) (node : OutlineNode) : Bool :=
  match node.kind with
  | .assignment targets => targets.contains name
  | _ => false

def maxHops : Nat := 4

/-- The strings that the last top-level assignment to `name` gives it. If its value is a name, the
strings of that name are taken; `hops` bounds how many assignments are looked at. -/
def listFrom (outline : Outline) (lines : List Text) : Nat → Text → Option (List Text)
  | 0, _ => none
  | hops + 1, name => do
    let node ← outline.reverse.find? (assigns name)
    let line ← lines[node.line - 1]?
    let value ← Assignment.value? (Text.trimStart line)
    match nameValue? value with
    | some other => listFrom outline lines hops other
    | none => StringList.items? (Text.joinLines (value :: lines.drop node.line))

def listed (source name : Text) : List Text :=
  (listFrom (Outline.ofSource source) source.lines maxHops name).getD []

def ofSource (source : Text) : ModuleMembers :=
  ⟨listed source "__autodoc_excludes__", listed source "__deprecated__"⟩

end ModuleMembers

/-- Whether a member is left out: the module or the table hides it, or it is deprecated, or it would
be left out anyway. -/
def skipsMember (members : ModuleMembers) (table : ExcludeTable) (kind name : Text) (skip : Bool) :
    Bool :=
  members.excludes.contains name || table.excludes kind name || members.deprecated.contains name ||
    skip

end DocMarkup
