import ScriptHost.Lua.World
/-! Values on their way between scripts and the host. A panic that reaches the host goes on there at once and
loses its payload; later it counts as nil. -/
namespace ScriptHost.Lua
open Text (Bytes)

inductive HostValue where
  | nil
  | bool (b : Bool)
  | pointer (address : UInt64)
  | int (i : Int64)
  | float (x : Float)
  | string (s : Bytes)
  | table (place : Nat)
  | function (place : Nat)
  | error (e : ScriptError)
  deriving Inhabited

namespace HostValue

def kindName : HostValue → String
  | .nil => "nil"
  | .bool _ => "boolean"
  | .pointer _ => "lightuserdata"
  | .int _ => "integer"
  | .float _ => "number"
  | .string _ => "string"
  | .table _ => "table"
  | .function _ => "function"
  | .error _ => "error"

def isTrue : HostValue → Bool
  | .nil | .bool false => false
  | _ => true

def text? : HostValue → Option String
  | .string s => some (Text.decodeLossy s)
  | .int i => some (Number.intText i)
  | .float x => some (Number.floatText x)
  | _ => none

/-- The string that scripts make of a string or a number. -/
def coerced? : HostValue → Option Bytes
  | .string s => some s
  | .int i => (Value.int i).toBytes?
  | .float x => (Value.float x).toBytes?
  | _ => none

def number? : HostValue → Option Float
  | .int i => some (Number.int i).toFloat
  | .float x => some x
  | .string s => (Number.ofBytes? s).map Number.toFloat
  | _ => none

end HostValue

/-- What reaches the host: a value, or a panic that goes on there. -/
abbrev Arrival (α : Type) := Except PanicPayload α

namespace World

def receive (w : World) : Value → Arrival HostValue × World
  | .nil => (.ok .nil, w)
  | .bool b => (.ok (.bool b), w)
  | .int i => (.ok (.int i), w)
  | .float x => (.ok (.float x), w)
  | .string s => (.ok (.string s), w)
  | .pointer a => (.ok (.pointer a), w)
  | .table place => (.ok (.table place), w)
  | .function place => (.ok (.function place), w)
  | .failure place =>
    match w.failures[place]? with
    | some (.error e) => (.ok (.error e), w)
    | some (.panic (some payload)) =>
      (.error payload, { w with failures := putAt w.failures place (.panic none) })
    | _ => (.ok .nil, w)

/-- Values for the host, from the first on. A panic ends them. -/
def receiveAll (w : World) : List Value → Arrival (List HostValue) × World
  | [] => (.ok [], w)
  | v :: rest =>
    match w.receive v with
    | (.error payload, w) => (.error payload, w)
    | (.ok h, w) =>
      match w.receiveAll rest with
      | (.error payload, w) => (.error payload, w)
      | (.ok hs, w) => (.ok (h :: hs), w)

def give (w : World) : HostValue → Value × World
  | .nil => (.nil, w)
  | .bool b => (.bool b, w)
  | .int i => (.int i, w)
  | .float x => (.float x, w)
  | .string s => (.string s, w)
  | .pointer a => (.pointer a, w)
  | .table place => (.table place, w)
  | .function place => (.function place, w)
  | .error e =>
    let (place, w) := w.addFailure (.error e)
    (.failure place, w)

def giveAll (w : World) : List HostValue → List Value × World
  | [] => ([], w)
  | h :: rest =>
    let (v, w) := w.give h
    let (vs, w) := w.giveAll rest
    (v :: vs, w)

end World
end ScriptHost.Lua
