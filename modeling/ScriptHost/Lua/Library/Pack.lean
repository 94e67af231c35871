import ScriptHost.Lua.Library.Search
import ScriptHost.Lua.Packing
/-! The functions that pack values into strings and unpack them. -/
namespace ScriptHost.Lua.Packing
open Text (Bytes)

def check {α : Type} : Except Fault α → Task α
  | .ok a => pure a
  | .error (.sizeOutOfLimits size) =>
    Task.failCaller s!"integral size ({size}) out of limits [1,{largestInteger}]"
  | .error .missingSize => Task.failCaller "missing size for format option 'c'"
  | .error (.invalidOption option) =>
    Task.fail (.located 1 ("invalid format option '".toUTF8 ++ untilNul ⟨#[option]⟩ ++ "'".toUTF8))
  | .error .invalidNext => Argument.fail 1 "invalid next option for option 'X'"
  | .error .unevenAlignment => Argument.fail 1 "format asks for alignment not power of 2"

def zeroBytes (n : Nat) : Bytes := ⟨Array.replicate n 0⟩

def packOne (mode : Mode) (item : Item) (args : List Value) (n : Nat) : Task Bytes := do
  match item with
  | .integer isSigned size =>
    let i := (← Argument.integer args n).toInt
    let bound : Int := Nat.pow 2 (8 * size)
    if isSigned then
      Argument.require (8 ≤ size || (-bound ≤ 2 * i && 2 * i < bound)) n "integer overflow"
      return mode.encode size i
    else
      let unsigned := i % Nat.pow 2 64
      Argument.require (8 ≤ size || unsigned < bound) n "unsigned overflow"
      return mode.encode size unsigned
  | .single => return mode.encode 4 (← Argument.float args n).toFloat32.toBits.toNat
  | .double => return mode.encode 8 (← Argument.float args n).toBits.toNat
  | .fixed size =>
    let s ← Argument.string args n
    Argument.require (s.size ≤ size) n "string longer than given size"
    return s ++ zeroBytes (size - s.size)
  | .counted size =>
    let s ← Argument.string args n
    Argument.require (8 ≤ size || s.size < Nat.pow 2 (8 * size)) n "string length does not fit in given size"
    return mode.encode size s.size ++ s
  | .terminated =>
    let s ← Argument.string args n
    Argument.require (!s.data.contains 0) n "string contains zeros"
    return s.push 0
  | .padding => return zeroBytes 1
  | .align _ | .order _ | .limit _ | .blank => return ByteArray.empty

def Item.hasValue : Item → Bool
  | .padding | .align _ | .order _ | .limit _ | .blank => false
  | _ => true

def packAll (args : List Value) : Nat → Mode → Nat → Bytes → List UInt8 → Task Bytes
  | 0, _, _, out, _ => pure out
  | _, _, _, out, [] => pure out
  | fuel + 1, mode, n, out, letter :: rest => do
    let (item, rest) ← check (Item.read letter rest)
    let mode := mode.after item
    let gap ← check (mode.gap item out.size)
    let n := if item.hasValue then n + 1 else n
    let bytes ← packOne mode item args n
    packAll args fuel mode n (out ++ zeroBytes gap ++ bytes) rest

def runPack (args : List Value) : Task (List Value) := do
  let format := untilNul (← Argument.string args 1)
  return [.string (← packAll args format.size {} 1 ByteArray.empty format.data.toList)]

def sizeAll : Nat → Mode → Nat → List UInt8 → Task Nat
  | 0, _, total, _ => pure total
  | _, _, total, [] => pure total
  | fuel + 1, mode, total, letter :: rest => do
    let (item, rest) ← check (Item.read letter rest)
    let mode := mode.after item
    let gap ← check (mode.gap item total)
    match item with
    | .counted _ | .terminated => Argument.fail 1 "variable-length format"
    | _ =>
      let total := total + gap + item.size
      Argument.require (total ≤ largestSize) 1 "format result too large"
      sizeAll fuel mode total rest

def runPacksize (args : List Value) : Task (List Value) := do
  let format := untilNul (← Argument.string args 1)
  return [.ofNat (← sizeAll format.size {} 0 format.data.toList)]

def tooShort : String := "data string too short"

def integerAt (mode : Mode) (isSigned : Bool) (data : Bytes) (place size : Nat) : Task Int64 :=
  match mode.decodeInteger? isSigned (data.extract place (place + size)) with
  | some i => pure i
  | none => Task.failCaller s!"{size}-byte integer does not fit into Lua Integer"

/-- The value of an item at a place of the data, and the place after it. -/
def unpackOne (mode : Mode) (item : Item) (data : Bytes) (place : Nat) : Task (Option Value × Nat) := do
  let stop := place + item.size
  let part := data.extract place stop
  match item with
  | .integer isSigned size => return (some (.int (← integerAt mode isSigned data place size)), stop)
  | .single => return (some (.float (Float32.ofBits (mode.decode part).toUInt32).toFloat), stop)
  | .double => return (some (.float (Float.ofBits (mode.decode part).toUInt64)), stop)
  | .fixed _ => return (some (.string part), stop)
  | .counted size =>
    let length := (← integerAt mode false data place size).toUInt64.toNat
    Argument.require (length ≤ data.size - stop) 2 tooShort
    return (some (.string (data.extract stop (stop + length))), stop + length)
  | .terminated =>
    match (data.extract place data.size).data.toList.findIdx? (· == 0) with
    | some length => return (some (.string (data.extract place (place + length))), place + length + 1)
    | none => Argument.fail 2 "unfinished string for format 'z'"
  | .padding | .align _ | .order _ | .limit _ | .blank => return (none, stop)

def unpackAll (data : Bytes) : Nat → Mode → Nat → List Value → List UInt8 → Task (List Value)
  | 0, _, place, values, _ => pure (values ++ [.ofNat (place + 1)])
  | _, _, place, values, [] => pure (values ++ [.ofNat (place + 1)])
  | fuel + 1, mode, place, values, letter :: rest => do
    let (item, rest) ← check (Item.read letter rest)
    let mode := mode.after item
    let gap ← check (mode.gap item place)
    Argument.require (gap + item.size ≤ data.size - place) 2 tooShort
    let (v, place) ← unpackOne mode item data (place + gap)
    unpackAll data fuel mode place (values ++ v.toList) rest

/-- Unpacks values from a string, and gives the place after them. -/
def runUnpack (args : List Value) : Task (List Value) := do
  let format := untilNul (← Argument.string args 1)
  let data ← Argument.string args 2
  let start := Search.startOf (← Argument.integerOr args 3 1) data.size - 1
  Argument.require (start ≤ data.size) 3 "initial position out of string"
  unpackAll data format.size {} start [] format.data.toList

end ScriptHost.Lua.Packing
