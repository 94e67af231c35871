import ScriptHost.Files
import ScriptHost.Log
import ScriptHost.Lua.Builtin
import ScriptHost.Lua.Code
import ScriptHost.Lua.HostFunction
import ScriptHost.Lua.Random
import ScriptHost.Lua.Table
import ScriptHost.Lua.Token
/-! The memory of an interpreter: its tables, functions, captured variables and failures by their places, and
what it has from outside. -/
namespace ScriptHost.Lua
open Text (Bytes)

/-- A search for a pattern that goes on from match to match. -/
structure Matching where
  text : Bytes
  pattern : Bytes
  position : Nat
  /-- Where the last match ended. -/
  lastEnd : Option Nat
  deriving Inhabited

inductive FunctionObject where
  | builtin (f : Builtin)
  | closure (proto : Proto) (captured : Array Nat)
  | host (f : HostFunction)
  | matching (m : Matching)
  deriving Inhabited

/-- What scripts can set about the reclaiming of memory, of which there is none. -/
structure Collector where
  isRunning : Bool := true
  generational : Bool := false
  pause : Int64 := 200
  stepMultiplier : Int64 := 100
  deriving Inhabited

structure World where
  tables : Array Table := #[]
  functions : Array FunctionObject := #[]
  /-- Variables that functions capture. -/
  cells : Array Value := #[]
  failures : Array Failure := #[]
  /-- The number of panics that functions of the host have raised. -/
  panics : Nat := 0
  /-- The table of global variables. -/
  globals : Nat := 0
  /-- The metatable of strings. -/
  stringMetatable : Option Nat := none
  /-- The tables of the libraries by name. -/
  loaded : List (Bytes × Nat) := []
  /-- What scripts have written to the log, the latest first. -/
  events : List LogEvent := []
  random : Random := Random.ofSeeds 0 0
  collector : Collector := {}
  /-- The functions that scripts have written out in compiled form. -/
  written : Array Proto := #[]
  /-- The files that scripts can load. -/
  files : FileTree := ⟨[]⟩
  clock : ClockReading := {}
  deriving Inhabited

@[noinline] def putAt {α : Type} (objects : Array α) (place : Nat) (object : α) : Array α :=
  objects.setIfInBounds place object

@[noinline] def changeAt {α : Type} (objects : Array α) (place : Nat) (change : α → α) : Array α :=
  objects.modify place change

namespace World

@[inline] def table (w : World) (place : Nat) : Table := w.tables[place]?.getD {}

@[inline] def modifyTable (w : World) (place : Nat) (change : Table → Table) : World :=
  { w with tables := changeAt w.tables place change }

def addTable (w : World) (t : Table) : Nat × World :=
  (w.tables.size, { w with tables := w.tables.push t })

def addFunction (w : World) (f : FunctionObject) : Nat × World :=
  (w.functions.size, { w with functions := w.functions.push f })

def addCell (w : World) (v : Value) : Nat × World :=
  (w.cells.size, { w with cells := w.cells.push v })

def addFailure (w : World) (f : Failure) : Nat × World :=
  (w.failures.size, { w with failures := w.failures.push f })

def metatable? (w : World) : Value → Option Nat
  | .table place => (w.table place).metatable
  | .string _ => w.stringMetatable
  | _ => none

/-- The handler of an event for a value; nil if there is none. -/
def handler (w : World) (v : Value) (event : String) : Value :=
  match v with
  | .failure _ =>
    if event == "__tostring" then .function Builtin.failureText.place else .nil
  | _ =>
    match w.metatable? v with
    | some place => (w.table place).getName event
    | none => .nil

def typeNameOf (w : World) (v : Value) : Bytes :=
  match v with
  | .table place =>
    match (w.table place).metatable with
    | some m =>
      match (w.table m).getName "__name" with
      | .string s => untilNul s
      | _ => v.typeName.toUTF8
    | none => v.typeName.toUTF8
  | _ => v.typeName.toUTF8

end World
end ScriptHost.Lua
