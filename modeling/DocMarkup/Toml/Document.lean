import DocMarkup.Toml.Lexical
import DocMarkup.Toml.Value

namespace DocMarkup.Toml

def scalarValue? (text : Text) : Option Value :=
  if text = "true" then some (.boolean true)
  else if text = "false" then some (.boolean false)
  else
    match integer? text with
    | some n => some (.integer n)
    | none =>
      if isFloat text then (if isTooGreat text then none else some .float)
      else (dateTime? text).map .dateTime

structure Pair where
  path : List Text
  value : Value

def arrayRest? (value? : Text → Read Value) : Nat → Text → Read (List Value)
  | 0, _ => none
  | fuel + 1, text =>
    match skipLines false text with
    | ']' :: rest => some ([], rest)
    | start =>
      (value? start).bind fun (value, rest) =>
        match skipLines false rest with
        | ',' :: rest =>
          (arrayRest? value? fuel rest).map fun (values, rest) => (value :: values, rest)
        | ']' :: rest => some ([value], rest)
        | _ => none

def pair? (value? : Text → Read Value) (text : Text) : Read Pair :=
  (keyPath? text).bind fun (path, rest) =>
    match rest with
    | '=' :: rest => (value? (skipSpaces rest)).map fun (value, rest) => (⟨path, value⟩, rest)
    | _ => none

def tableRest? (value? : Text → Read Value) : Nat → Entries → Text → Read Entries
  | 0, _, _ => none
  | fuel + 1, entries, text =>
    (pair? value? text).bind fun (pair, rest) =>
      (entries.assign true pair.value pair.path).bind fun entries =>
        match skipSpaces rest with
        | ',' :: rest => tableRest? value? fuel entries rest
        | '\x7d' :: rest => some (entries, rest)
        | _ => none

def leaf? (text : Text) : Read Value :=
  match string? text with
  | some (text, rest) => some (.string text, rest)
  | none =>
    let (word, rest) := scalar text
    (scalarValue? word).map fun value => (value, rest)

def value? : Nat → Text → Read Value
  | 0, text => leaf? text
  | depth + 1, text =>
    match text with
    | '[' :: rest =>
      (arrayRest? (value? depth) (rest.length + 1) rest).map fun (items, rest) =>
        (.array items, rest)
    | '\x7b' :: rest =>
      match skipSpaces rest with
      | '\x7d' :: rest => some (.table .inline [], rest)
      | rest =>
        (tableRest? (value? depth) (rest.length + 1) [] rest).map fun (entries, rest) =>
          (.table .inline entries, rest)
    | _ => leaf? text

structure Progress where
  entries : Entries
  table : List Text

def header? (doubled : Bool) (progress : Progress) (text : Text) : Read Progress :=
  (keyPath? text).bind fun (path, rest) =>
    let closing : Text := if doubled then "]]" else "]"
    let change := if doubled then Entries.openItem else Entries.openTable
    (Text.after? closing rest).bind fun rest =>
      (progress.entries.changeAt (change (path.getLastD [])) path.dropLast).map fun entries =>
        (⟨entries, path⟩, rest)

def expression? (progress : Progress) (text : Text) : Read Progress :=
  match text with
  | '[' :: '[' :: rest => header? true progress rest
  | '[' :: rest => header? false progress rest
  | _ =>
    (pair? (value? maxDepth) text).bind fun (pair, rest) =>
      (progress.entries.changeAt (Entries.assign true pair.value pair.path) progress.table).map
        fun entries => (⟨entries, progress.table⟩, rest)

def readLines? : Nat → Progress → Text → Option Entries
  | 0, _, _ => none
  | fuel + 1, progress, text =>
    match skipLines false text with
    | [] => some progress.entries
    | start =>
      (expression? progress start).bind fun (progress, rest) =>
        (finishLine? rest).bind (readLines? fuel progress)

def withoutMark : Text → Text
  | '\ufeff' :: rest => rest
  | text => text

def entries? (text : Text) : Option Entries :=
  readLines? (text.length + 1) ⟨[], []⟩ (withoutMark text)

end DocMarkup.Toml
