import ScriptHost.Lua.Library.Argument
/-! The library of mathematics. -/
namespace ScriptHost.Lua.MathFunction

def pi : Float := Float.ofBits 0x400921FB54442D18

/-- A whole number as an integer if it fits, or else as it is. -/
def wholeValue (whole : Option Int) (x : Float) : Value :=
  match whole with
  | some i => if Numeral.inRange64 i then .int (Int64.ofInt i) else .float x
  | none => .float x

def onFloat (f : Float → Float) (args : List Value) : Task (List Value) := do
  return [.float (f (← Argument.float args 1))]

def runFloor (args : List Value) : Task (List Value) := do
  match Argument.get args 1 with
  | .int i => return [.int i]
  | _ =>
    let x ← Argument.float args 1
    return [wholeValue (Numeral.floor? x) x.floor]

def runCeil (args : List Value) : Task (List Value) := do
  match Argument.get args 1 with
  | .int i => return [.int i]
  | _ =>
    let x ← Argument.float args 1
    return [wholeValue (Numeral.ceiling? x) x.ceil]

/-- The remainder of a division that rounds towards zero. -/
def runFmod (args : List Value) : Task (List Value) := do
  match Argument.get args 1, Argument.get args 2 with
  | .int x, .int y =>
    Argument.require (y != 0) 2 "zero"
    return [.int (Int64.ofInt (x.toInt.tmod y.toInt))]
  | _, _ => return [.float (Numeral.fmod (← Argument.float args 1) (← Argument.float args 2))]

def runModf (args : List Value) : Task (List Value) := do
  match Argument.get args 1 with
  | .int i => return [.int i, .float 0.0]
  | _ =>
    let x ← Argument.float args 1
    let whole := if x < 0 then x.ceil else x.floor
    return [.float whole, .float (if x == whole then 0.0 else x - whole)]

def runLog (args : List Value) : Task (List Value) := do
  let x ← Argument.float args 1
  if Argument.isAbsent args 2 then return [.float x.log]
  else
    let base ← Argument.float args 2
    if base == 2.0 then return [.float x.log2]
    else if base == 10.0 then return [.float x.log10]
    else return [.float (x.log / base.log)]

/-- A number between one half and one, and the power of two that makes a number of it. -/
def splitExponent (x : Float) : Float × Int :=
  match Numeral.Parts.ofFloat x with
  | .finite negative mantissa exponent =>
    if mantissa == 0 then (x, 0)
    else
      let bits : Int := mantissa.log2 + 1
      (Numeral.ofScaled negative mantissa 2 (-bits), exponent + bits)
  | _ => (x, 0)

def scale (x : Float) (power : Int) : Float :=
  match Numeral.Parts.ofFloat x with
  | .finite negative mantissa exponent => Numeral.ofScaled negative mantissa 2 (exponent + power)
  | _ => x

/-- The first of some values that no other one passes. -/
def extremum (passes : Value → Value → Task Bool) (best : Value) : List Value → Task Value
  | [] => pure best
  | v :: rest => do
    if ← passes v best then extremum passes v rest else extremum passes best rest

def runExtremum (passes : Value → Value → Task Bool) (args : List Value) : Task (List Value) := do
  let first ← Argument.any args 1
  return [← extremum passes first args.tail]

def nextWord : Task UInt64 := Task.create fun w =>
  let (word, state) := w.random.next
  (word, { w with random := state })

def randomBetween (low high : Int64) (word : UInt64) : Task (List Value) := do
  Argument.require (low ≤ high) 1 "interval is empty"
  let offset ← Task.create fun w =>
    let (offset, state) := w.random.project word (high.toUInt64 - low.toUInt64)
    (offset, { w with random := state })
  return [.int (offset + low.toUInt64).toInt64]

def runRandom (args : List Value) : Task (List Value) := do
  let word ← nextWord
  match args.length with
  | 0 => return [.float (Numeral.ofRatio false (word >>> 11).toNat (Nat.pow 2 53))]
  | 1 =>
    let high ← Argument.integer args 1
    if high == 0 then return [.int word.toInt64] else randomBetween 1 high word
  | 2 => randomBetween (← Argument.integer args 1) (← Argument.integer args 2) word
  | _ => Task.failCaller "wrong number of arguments"

def runRandomseed (args : List Value) : Task (List Value) := do
  let seeds ← match Argument.get? args 1 with
    | none => do pure ((← nextWord).toInt64, (← nextWord).toInt64)
    | some v => do
      let first ← match v with
        | .int i => pure i
        | _ =>
          let x ← Argument.float args 1
          pure ((Numeral.toInt64? x).getD x.toBits.toInt64)
      pure (first, ← Argument.integerOr args 2 0)
  Task.change fun w => { w with random := .ofSeeds seeds.1.toUInt64 seeds.2.toUInt64 }
  return [.int seeds.1, .int seeds.2]

def run (f : MathFunction) (args : List Value) : Task (List Value) := do
  match f with
  | .abs =>
    match Argument.get args 1 with
    | .int i => return [.int (if i < 0 then -i else i)]
    | _ => onFloat Float.abs args
  | .acos => onFloat Float.acos args
  | .asin => onFloat Float.asin args
  | .atan =>
    let y ← Argument.float args 1
    let x ← if Argument.isAbsent args 2 then pure 1.0 else Argument.float args 2
    return [.float (Float.atan2 y x)]
  | .ceil => runCeil args
  | .cos => onFloat Float.cos args
  | .cosh => onFloat Float.cosh args
  | .deg => onFloat (fun x => x * (180.0 / pi)) args
  | .exp => onFloat Float.exp args
  | .floor => runFloor args
  | .fmod => runFmod args
  | .frexp =>
    let (fraction, exponent) := splitExponent (← Argument.float args 1)
    return [.float fraction, .int (Int64.ofInt exponent)]
  | .ldexp =>
    let x ← Argument.float args 1
    let power ← Argument.integer args 2
    return [.float (scale x (power.toInt.bmod (Nat.pow 2 32)))]
  | .log => runLog args
  | .log10 => onFloat Float.log10 args
  | .max => runExtremum (fun v best => Operation.less best v) args
  | .min => runExtremum (fun v best => Operation.less v best) args
  | .modf => runModf args
  | .pow => return [.float (Float.pow (← Argument.float args 1) (← Argument.float args 2))]
  | .rad => onFloat (fun x => x * (pi / 180.0)) args
  | .random => runRandom args
  | .randomseed => runRandomseed args
  | .sin => onFloat Float.sin args
  | .sinh => onFloat Float.sinh args
  | .sqrt => onFloat Float.sqrt args
  | .tan => onFloat Float.tan args
  | .tanh => onFloat Float.tanh args
  | .tointeger =>
    let v ← Argument.any args 1
    return [v.toInteger?.elim .nil Value.int]
  | .type =>
    match ← Argument.any args 1 with
    | .int _ => return [.ofText "integer"]
    | .float _ => return [.ofText "float"]
    | _ => return [.nil]
  | .ult =>
    let a ← Argument.integer args 1
    let b ← Argument.integer args 2
    return [.bool (a.toUInt64 < b.toUInt64)]

end ScriptHost.Lua.MathFunction
