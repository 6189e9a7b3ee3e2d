import DocMarkup.Text.Basic

namespace DocMarkup.Toml

inductive TableOrigin where
  | inline
  | header
  | implied
  | dotted
  deriving DecidableEq

inductive Value where
  | string (text : Text)
  | integer (n : Int)
  | boolean (b : Bool)
  | float
  | dateTime (text : Text)
  | array (items : List Value)
  | table (origin : TableOrigin) (entries : List (Text × Value))
  | tables (items : List (List (Text × Value)))

abbrev Entries := List (Text × Value)

namespace Entries

def replace (key : Text) (value : Value) (entries : Entries) : Entries :=
  entries.map fun entry => if entry.1 = key then (key, value) else entry

def changeLast (change : Entries → Option Entries) : List Entries → Option (List Entries)
  | [] => none
  | [last] => (change last).map ([·])
  | first :: rest => (changeLast change rest).map (first :: ·)

/-- Gives a dotted key its value. The tables on the way are made if they are missing; they may have
come from dotted keys or be implied, and the last of them has to be open to dotted keys. -/
def assign (isOpen : Bool) (value : Value) : List Text → Entries → Option Entries
  | [], _ => none
  | [key], entries =>
    if isOpen && (entries.lookup key).isNone then some (entries ++ [(key, value)]) else none
  | key :: path, entries =>
    match entries.lookup key with
    | none => (assign true value path []).map fun below => entries ++ [(key, .table .dotted below)]
    | some (.table .dotted below) =>
      (assign true value path below).map fun below => entries.replace key (.table .dotted below)
    | some (.table .implied below) =>
      (assign false value path below).map fun below => entries.replace key (.table .implied below)
    | some (.tables items) =>
      (changeLast (assign false value path) items).map fun items =>
        entries.replace key (.tables items)
    | some _ => none

/-- Changes the table at a path. Missing tables on the way are implied by it, and of a list of
tables the last is meant. -/
def changeAt (change : Entries → Option Entries) : List Text → Entries → Option Entries
  | [], entries => change entries
  | key :: path, entries =>
    match entries.lookup key with
    | none => (changeAt change path []).map fun below => entries ++ [(key, .table .implied below)]
    | some (.table .inline _) => none
    | some (.table origin below) =>
      (changeAt change path below).map fun below => entries.replace key (.table origin below)
    | some (.tables items) =>
      (changeLast (changeAt change path) items).map fun items => entries.replace key (.tables items)
    | some _ => none

def openTable (key : Text) (entries : Entries) : Option Entries :=
  match entries.lookup key with
  | none => some (entries ++ [(key, .table .header [])])
  | some (.table .implied below) => some (entries.replace key (.table .header below))
  | some _ => none

def openItem (key : Text) (entries : Entries) : Option Entries :=
  match entries.lookup key with
  | none => some (entries ++ [(key, .tables [[]])])
  | some (.tables items) => some (entries.replace key (.tables (items ++ [[]])))
  | some _ => none

end Entries

end DocMarkup.Toml
