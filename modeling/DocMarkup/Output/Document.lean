import DocMarkup.Output.Quoted
import DocMarkup.Text.Block

namespace DocMarkup

structure Document where
  source : Option Text
  lines : Block

inductive OutputFormat where
  | rst
  | json
  deriving DecidableEq

structure UnknownFormat where
  name : Text

def UnknownFormat.message (e : UnknownFormat) : Text :=
  "unknown format: " ++ e.name ++ ". Use rst or json"

namespace OutputFormat

def ofName (name : Text) : Except UnknownFormat OutputFormat :=
  if name = "rst" ∨ name = "rest" then .ok rst
  else if name = "json" then .ok json
  else .error ⟨name⟩

def extension : OutputFormat → Text
  | rst => "rst"
  | json => "json"

end OutputFormat

namespace Document

def text (document : Document) : Text := Text.joinLines document.lines

def toRst (document : Document) : Text :=
  if document.text.getLast? == some '\n' then document.text else document.text ++ "\n"

def jsonList : List Text → Text
  | [] => "[]"
  | items =>
    "[\n" ++ Text.joinWith ",\n" (items.map fun item => "    " ++ Output.quoted item) ++ "\n  ]"

def jsonSource : Option Text → Text
  | none => "null"
  | some source => Output.quoted source

def toJson (document : Document) : Text :=
  "\x7b\n  \"source\": " ++ jsonSource document.source ++
    ",\n  \"lines\": " ++ jsonList document.lines ++
    ",\n  \"text\": " ++ Output.quoted document.text ++ "\n\x7d\n"

def render (document : Document) : OutputFormat → Text
  | .rst => document.toRst
  | .json => document.toJson

end Document

end DocMarkup
