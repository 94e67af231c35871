import ScriptHost.Lua.Operation
/-! The arguments of functions that the interpreter provides. They are counted from one, and an argument that
is not as it has to be is an error that names its place. -/
namespace ScriptHost.Lua.Argument
open Text (Bytes)

/-- An argument, if the call has so many. -/
def get? (args : List Value) (n : Nat) : Option Value := args[n - 1]?

/-- An argument; nil if the call has less. -/
def get (args : List Value) (n : Nat) : Value := (get? args n).getD .nil

def isAbsent (args : List Value) (n : Nat) : Bool := (get args n).isNil

def fail {α : Type} (n : Nat) (message : String) : Task α := Task.fail (.argument n message.toUTF8)

def require (holds : Bool) (n : Nat) (message : String) : Task Unit :=
  if holds then pure () else fail n message

def typeName (w : World) : Option Value → Bytes
  | none => "no value".toUTF8
  | some v =>
    match w.handler v "__name", v with
    | .string name, _ => untilNul name
    | _, .pointer _ => "light userdata".toUTF8
    | _, _ => v.typeName.toUTF8

def mismatch {α : Type} (args : List Value) (n : Nat) (expected : String) : Task α := do
  let name ← Task.read fun w => typeName w (get? args n)
  Task.fail (.argument n ((expected ++ " expected, got ").toUTF8 ++ name))

def any (args : List Value) (n : Nat) : Task Value :=
  match get? args n with
  | some v => pure v
  | none => fail n "value expected"

/-- An integer, or anything that can be one. -/
def integer (args : List Value) (n : Nat) : Task Int64 :=
  match (get args n).toNumber? with
  | some x =>
    match x.toInt64? with
    | some i => pure i
    | none => fail n "number has no integer representation"
  | none => mismatch args n "number"

def integerOr (args : List Value) (n : Nat) (default : Int64) : Task Int64 :=
  if isAbsent args n then pure default else integer args n

/-- A number, or a text that spells one. -/
def number (args : List Value) (n : Nat) : Task Number :=
  match (get args n).toNumber? with
  | some x => pure x
  | none => mismatch args n "number"

def float (args : List Value) (n : Nat) : Task Float := do return (← number args n).toFloat

/-- A string, or a number as a text. -/
def string (args : List Value) (n : Nat) : Task Bytes :=
  match (get args n).toBytes? with
  | some s => pure s
  | none => mismatch args n "string"

def stringOr (args : List Value) (n : Nat) (default : Bytes) : Task Bytes :=
  if isAbsent args n then pure default else string args n

def table (args : List Value) (n : Nat) : Task Nat :=
  match get args n with
  | .table place => pure place
  | _ => mismatch args n "table"

def function (args : List Value) (n : Nat) : Task Value :=
  match get args n with
  | .function place => pure (.function place)
  | _ => mismatch args n "function"

end ScriptHost.Lua.Argument
