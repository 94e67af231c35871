import ScriptHost.Config.Basic
import ScriptHost.Lua.HostCall
import ScriptHost.Lua.Library.Base
import ScriptHost.Lua.Library.List
import ScriptHost.Lua.Library.Math
import ScriptHost.Lua.Library.Text
import ScriptHost.Lua.Library.Utf8
import ScriptHost.Lua.Machine
/-! The functions that the interpreter provides, and its memory at the start. -/
namespace ScriptHost.Lua
open Text (Bytes)

def Builtin.run (f : Builtin) (args : List Value) : Task (List Value) :=
  match f with
  | .base f => f.run args
  | .math f => f.run args
  | .string f => f.run args
  | .table f => f.run args
  | .utf8 f => f.run args
  | .failureText => Failure.describe args
  | .explain => Raised.explain args

def provision (memory : World → MemoryReading) : Provision where
  builtin := Builtin.run
  host := HostFunction.run
  matching place m _ := Search.runMatching place m
  memory

def Builtin.value (f : Builtin) : Value := .function f.place

abbrev Entries := List (String × Value)

def tableOf (entries : Entries) : Table :=
  entries.foldl (fun t (name, v) => t.setName name v) {}

def baseEntries : Entries := Builtin.baseFunctions.map fun (name, f) => (name, (Builtin.base f).value)

def mathEntries : Entries :=
  Builtin.mathFunctions.map (fun (name, f) => (name, (Builtin.math f).value)) ++
    [("pi", .float MathFunction.pi), ("huge", .float (Numeral.infinity false)),
      ("maxinteger", .int Int64.maxValue), ("mininteger", .int Int64.minValue)]

def stringEntries : Entries :=
  Builtin.stringFunctions.map fun (name, f) => (name, (Builtin.string f).value)

/-- What the metatable of strings has for arithmetic. -/
def stringEventEntries : Entries :=
  Builtin.stringEvents.map fun (name, f) => (name, (Builtin.string f).value)

def tableEntries : Entries :=
  Builtin.tableFunctions.map fun (name, f) => (name, (Builtin.table f).value)

def utf8Entries : Entries :=
  Builtin.utf8Functions.map (fun (name, f) => (name, (Builtin.utf8 f).value)) ++
    [("charpattern", .string Utf8Function.charPattern)]

namespace World

def addLibrary (w : World) (name : String) (entries : Entries) : Nat × World :=
  let (place, w) := w.addTable (tableOf entries)
  let w := w.modifyTable w.globals (·.setName name (.table place))
  (place, { w with loaded := w.loaded ++ [(name.toUTF8, place)] })

/-- Adds the library of strings, and a metatable by which strings have its functions as methods. -/
def addStrings (w : World) : World :=
  let (library, w) := w.addLibrary "string" stringEntries
  let (metatable, w) := w.addTable ((tableOf stringEventEntries).setName "__index" (.table library))
  { w with stringMetatable := some metatable }

def version : String := "Lua 5.4"

def base : World :=
  let start : World := { functions := Builtin.all.map .builtin }
  let (globals, w) := start.addTable (tableOf baseEntries)
  let w := w.modifyTable globals fun t =>
    (t.setName "_G" (.table globals)).setName "_VERSION" (.ofText version)
  { w with globals, loaded := [("_G".toUTF8, globals)] }

def ofLibraries (libraries : Libraries) : World :=
  let w := base
  let w := if libraries.table then (w.addLibrary "table" tableEntries).2 else w
  let w := if libraries.string then w.addStrings else w
  let w := if libraries.utf8 then (w.addLibrary "utf8" utf8Entries).2 else w
  if libraries.math then (w.addLibrary "math" mathEntries).2 else w

end World
end ScriptHost.Lua
