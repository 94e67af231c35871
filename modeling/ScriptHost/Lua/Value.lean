import ScriptHost.Lua.Arithmetic
/-! The values of scripts, and the keys under which tables keep them. -/
namespace ScriptHost.Lua
open Text (Bytes)

/-- A value. Tables, functions and failures are named by their places in the memory of the interpreter. -/
inductive Value where
  | nil
  | bool (b : Bool)
  | int (i : Int64)
  | float (x : Float)
  | string (s : Bytes)
  /-- An address of the host, which means nothing to scripts. -/
  | pointer (address : UInt64)
  | table (place : Nat)
  | function (place : Nat)
  /-- An error or a panic of the host on its way through a script. -/
  | failure (place : Nat)
  deriving Inhabited

namespace Value

def ofConstant : Constant → Value
  | .nil => .nil
  | .bool b => .bool b
  | .number (.int i) => .int i
  | .number (.float x) => .float x
  | .string s => .string s

def ofNumber : Number → Value
  | .int i => .int i
  | .float x => .float x

def ofText (s : String) : Value := .string s.toUTF8

def ofNat (n : Nat) : Value := .int (Int64.ofNat n)

def number? : Value → Option Number
  | .int i => some (.int i)
  | .float x => some (.float x)
  | _ => none

def toNumber? : Value → Option Number
  | .int i => some (.int i)
  | .float x => some (.float x)
  | .string s => Number.ofBytes? s
  | _ => none

/-- The integer that a value is or spells, if its value is integral. -/
def toInteger? (v : Value) : Option Int64 := v.toNumber?.bind Number.toInt64?

def toBytes? : Value → Option Bytes
  | .string s => some s
  | .int i => some (Number.intText i).toUTF8
  | .float x => some (Number.floatText x).toUTF8
  | _ => none

def isTrue : Value → Bool
  | .nil | .bool false => false
  | _ => true

def isNil : Value → Bool
  | .nil => true
  | _ => false

def typeName : Value → String
  | .nil => "nil"
  | .bool _ => "boolean"
  | .int _ | .float _ => "number"
  | .string _ => "string"
  | .pointer _ | .failure _ => "userdata"
  | .table _ => "table"
  | .function _ => "function"

def same : Value → Value → Bool
  | .nil, .nil => true
  | .bool a, .bool b => a == b
  | .int a, .int b => a == b
  | .float a, .float b => a == b
  | .int a, .float b => Number.equal (.int a) (.float b)
  | .float a, .int b => Number.equal (.float a) (.int b)
  | .string a, .string b => a == b
  | .pointer a, .pointer b => a == b
  | .table a, .table b => a == b
  | .function a, .function b => a == b
  | .failure a, .failure b => a == b
  | _, _ => false

end Value

/-- What a table keeps values under. Numbers with an integral value are integers. -/
inductive Key where
  | bool (b : Bool)
  | int (i : Int64)
  | float (bits : UInt64)
  | string (s : Bytes)
  | pointer (address : UInt64)
  | table (place : Nat)
  | function (place : Nat)
  | failure (place : Nat)
  deriving DecidableEq, Inhabited

namespace Key

/-- The key of a value. Nil has none, and neither has what is not a number. -/
def ofValue? : Value → Option Key
  | .nil => none
  | .bool b => some (.bool b)
  | .int i => some (.int i)
  | .float x =>
    match Numeral.toInt64? x with
    | some i => some (.int i)
    | none => if x == x then some (.float x.toBits) else none
  | .string s => some (.string s)
  | .pointer a => some (.pointer a)
  | .table place => some (.table place)
  | .function place => some (.function place)
  | .failure place => some (.failure place)

def value : Key → Value
  | .bool b => .bool b
  | .int i => .int i
  | .float bits => .float (Float.ofBits bits)
  | .string s => .string s
  | .pointer a => .pointer a
  | .table place => .table place
  | .function place => .function place
  | .failure place => .failure place

def rank : Key → Nat
  | .bool _ => 0
  | .int _ => 1
  | .float _ => 2
  | .string _ => 3
  | .pointer _ => 4
  | .table _ => 5
  | .function _ => 6
  | .failure _ => 7

def compareFrom (a b : Bytes) : Nat → Nat → Ordering
  | 0, _ => .eq
  | count + 1, i =>
    if h : i < a.size ∧ i < b.size then
      (compare a[i] b[i]).then (compareFrom a b count (i + 1))
    else .eq

/-- Shorter texts come first. -/
def compareBytes (a b : Bytes) : Ordering :=
  (compare a.size b.size).then (compareFrom a b a.size 0)

/-- An order of all keys, of use only to find them. -/
def compareKeys : Key → Key → Ordering
  | .bool a, .bool b => compare a b
  | .int a, .int b => compare a b
  | .float a, .float b => compare a b
  | .string a, .string b => compareBytes a b
  | .pointer a, .pointer b => compare a b
  | .table a, .table b => compare a b
  | .function a, .function b => compare a b
  | .failure a, .failure b => compare a b
  | a, b => compare a.rank b.rank

end Key
end ScriptHost.Lua
