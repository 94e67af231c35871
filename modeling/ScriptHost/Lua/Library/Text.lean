import ScriptHost.Lua.Chunk
import ScriptHost.Lua.Library.Format
import ScriptHost.Lua.Library.Pack
/-! The library of strings, and the arithmetic of strings that spell numbers. -/
namespace ScriptHost.Lua.StringFunction
open Text (Bytes)

def largestSize : Nat := 2147483647

def resultLimit : Nat := 1000000 - 100

def runByte (args : List Value) : Task (List Value) := do
  let s ← Argument.string args 1
  let position ← Argument.integerOr args 2 1
  let first := Search.startOf position s.size
  let last := Search.endOf (← Argument.integerOr args 3 position) s.size
  if last < first then return []
  else if resultLimit < last - first then Task.failCaller "stack overflow (string slice too long)"
  else return (s.extract (first - 1) last).data.toList.map fun b => .ofNat b.toNat

def charsOf (args : List Value) : Nat → Nat → Bytes → Task Bytes
  | 0, _, out => pure out
  | count + 1, n, out => do
    let c ← Argument.integer args n
    Argument.require (0 ≤ c && c ≤ 255) n "value out of range"
    charsOf args count (n + 1) (out.push c.toUInt64.toUInt8)

def copies (s : Bytes) : Nat → Bytes → Bytes
  | 0, out => out
  | n + 1, out => copies s n (out ++ s)

def runRep (args : List Value) : Task (List Value) := do
  let s ← Argument.string args 1
  let count ← Argument.integer args 2
  let between ← Argument.stringOr args 3 ByteArray.empty
  if count ≤ 0 then return [.string ByteArray.empty]
  else
    let n := count.toNatClampNeg
    if largestSize / n < s.size + between.size then Task.failCaller "resulting string too large"
    else return [.string (copies (s ++ between) (n - 1) ByteArray.empty ++ s)]

def runSub (args : List Value) : Task (List Value) := do
  let s ← Argument.string args 1
  let first := Search.startOf (← Argument.integer args 2) s.size
  let last := Search.endOf (← Argument.integerOr args 3 (-1)) s.size
  return [.string (s.extract (first - 1) last)]

def runMap (f : UInt8 → UInt8) (args : List Value) : Task (List Value) := do
  return [.string ⟨(← Argument.string args 1).data.map f⟩]

def runDump (args : List Value) : Task (List Value) := do
  match ← Argument.function args 1 with
  | .function place =>
    match ← Task.read (·.functions[place]?) with
    | some (.closure proto _) =>
      let number ← Task.create fun w => (w.written.size, { w with written := w.written.push proto })
      return [.string (Chunk.encode number)]
    | _ => Task.failCaller "unable to dump given function"
  | _ => Task.failCaller "unable to dump given function"

/-- Arithmetic of values that are numbers or spell them. If one does not, the second may have a handler. -/
def runArith (op : ArithOp) (args : List Value) : Task (List Value) := do
  let a := Argument.get args 1
  let b := Argument.get args 2
  match a.toNumber?, b.toNumber? with
  | some x, some y => return [← Operation.arith op (.ofNumber x) (.ofNumber y)]
  | _, _ => byHandler (Operation.arithEvent op) a b
where
  /-- The second value does the arithmetic, unless it is a string as well. -/
  byHandler (event : String) (a b : Value) : Task (List Value) := do
    let handler ← match b with
      | .string _ => pure Value.nil
      | _ => Task.read (·.handler b event)
    match handler with
    | .nil =>
      let verb := String.ofList (event.toList.drop 2)
      Task.failCaller s!"attempt to {verb} a '{a.typeName}' with a '{b.typeName}'"
    | _ => return [← Task.callFirst handler [a, b]]

def runNegate (args : List Value) : Task (List Value) := do
  let a := Argument.get args 1
  match a.toNumber?, (Argument.get args 2).toNumber? with
  | some x, some _ => return [.ofNumber x.negate]
  | _, _ => runArith.byHandler "__unm" a (Argument.get args 2)

def run (f : StringFunction) (args : List Value) : Task (List Value) := do
  match f with
  | .byte => runByte args
  | .char => return [.string (← charsOf args args.length 1 ByteArray.empty)]
  | .dump => runDump args
  | .find => Search.runFind true args
  | .format => Format.run args
  | .gmatch => Search.runGmatch args
  | .gsub => Search.runGsub args
  | .len => return [.ofNat (← Argument.string args 1).size]
  | .lower => runMap (fun b => if 65 ≤ b && b ≤ 90 then b + 32 else b) args
  | .matchFirst => Search.runFind false args
  | .pack => Packing.runPack args
  | .packsize => Packing.runPacksize args
  | .rep => runRep args
  | .reverse => return [.string ⟨(← Argument.string args 1).data.reverse⟩]
  | .sub => runSub args
  | .unpack => Packing.runUnpack args
  | .upper => runMap (fun b => if 97 ≤ b && b ≤ 122 then b - 32 else b) args
  | .add => runArith .add args
  | .subtract => runArith .sub args
  | .multiply => runArith .mul args
  | .modulo => runArith .mod args
  | .power => runArith .pow args
  | .divide => runArith .div args
  | .floorDivide => runArith .floorDiv args
  | .negate => runNegate args

end ScriptHost.Lua.StringFunction
