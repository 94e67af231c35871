/-! The data that a TOML document says, and how its tables came about. -/
namespace ScriptHost.Config.Toml

/-- How a table was written, which decides who may add to it. -/
inductive Origin where
  /-- Between braces; it is complete. -/
  | inlined
  /-- Named only on the way to another table. -/
  | passed
  /-- Opened by the dots of a key. -/
  | dotted
  /-- Named by a header of its own. -/
  | headed
  deriving DecidableEq, Repr

/-- A value of a document. Arrays know whether they were built from headers, and tables keep their keys in
the order of the document. -/
inductive Value where
  | string (text : String)
  | integer (value : Int)
  | float (value : Float)
  | boolean (value : Bool)
  | moment
  | array (fromHeaders : Bool) (items : List Value)
  | table (origin : Origin) (entries : List (String × Value))
  deriving Inhabited

/-- The keys and values of a table, in order. -/
abbrev Entries := List (String × Value)

namespace Entries

def find? (entries : Entries) (key : String) : Option Value := entries.lookup key

def put : Entries → String → Value → Entries
  | [], key, value => [(key, value)]
  | (k, v) :: rest, key, value =>
    if k == key then (key, value) :: rest else (k, v) :: put rest key value

/-- Adds a value under dotted names to a table. The tables on the way are opened by the dots, or were so
before. -/
def addDotted (entries : Entries) : List String → Value → Option Entries
  | [], _ => none
  | [key], value => match find? entries key with
    | none => some (put entries key value)
    | some _ => none
  | key :: rest, value =>
    match find? entries key with
    | none => (addDotted [] rest value).map fun inner => put entries key (.table .dotted inner)
    | some (.table origin inner) =>
      if origin == .dotted || origin == .passed then
        (addDotted inner rest value).map fun inner => put entries key (.table origin inner)
      else none
    | some _ => none

/-- Changes the table at the end of a path of header names, opening the tables on the way. The last table of
an array that headers built stands for the array. -/
def alongHeader (entries : Entries) (change : Entries → Option Entries) : List String → Option Entries
  | [] => change entries
  | key :: rest =>
    match find? entries key with
    | none => (alongHeader [] change rest).map fun inner => put entries key (.table .passed inner)
    | some (.table .inlined _) => none
    | some (.table origin inner) =>
      (alongHeader inner change rest).map fun inner => put entries key (.table origin inner)
    | some (.array true items) =>
      match items.reverse with
      | .table origin inner :: before =>
        (alongHeader inner change rest).map fun inner =>
          put entries key (.array true (before.reverse ++ [.table origin inner]))
      | _ => none
    | some _ => none

/-- Opens the table of a header inside the table that holds it. It may have been passed before, but not
defined. -/
def openTable (key : String) (entries : Entries) : Option Entries :=
  match find? entries key with
  | none => some (put entries key (.table .headed []))
  | some (.table .passed inner) => some (put entries key (.table .headed inner))
  | some _ => none

def openElement (key : String) (entries : Entries) : Option Entries :=
  match find? entries key with
  | none => some (put entries key (.array true [.table .headed []]))
  | some (.array true items) => some (put entries key (.array true (items ++ [.table .headed []])))
  | some _ => none

end Entries
end ScriptHost.Config.Toml
