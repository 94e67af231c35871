import ScriptHost.Lua.Syntax
/-! Arithmetic and comparison of numbers. Integers stay integers where the operator allows it and wrap around;
division and remainder round down; comparisons of an integer with a floating-point number are exact. -/
namespace ScriptHost.Lua

inductive ArithFault where
  | divideByZero
  | remainderByZero
  /-- An operand of a bitwise operation has no integer with its value: the second one, or only the first. -/
  | noInteger (second : Bool)
  deriving DecidableEq, Repr

namespace Number

/-- A shift to the left with zeros shifted in; negative amounts shift to the right. -/
def shiftLeft (x y : Int64) : Int64 :=
  let bits := x.toUInt64
  let amount := y.toInt
  if amount ≤ -64 || 64 ≤ amount then 0
  else if amount < 0 then (bits >>> (-amount).toNat.toUInt64).toInt64
  else (bits <<< amount.toNat.toUInt64).toInt64

/-- The remainder of floating-point numbers with the sign of the divisor. -/
def floatMod (a b : Float) : Float :=
  let r := Numeral.fmod a b
  if (if r > 0 then b < 0 else r < 0 && b > 0) then r + b else r

def floatPow (a b : Float) : Float := if b == 2.0 then a * a else Float.pow a b

private def onFloats (op : Float → Float → Float) (a b : Number) : Except ArithFault Number :=
  .ok (.float (op a.toFloat b.toFloat))

private def onIntegers (op : Int64 → Int64 → Int64) (a b : Number) : Except ArithFault Number :=
  match b.toInt64? with
  | none => .error (.noInteger true)
  | some y => match a.toInt64? with
    | none => .error (.noInteger false)
    | some x => .ok (.int (op x y))

def arith (op : ArithOp) (a b : Number) : Except ArithFault Number :=
  match op, a, b with
  | .add, .int x, .int y => .ok (.int (x + y))
  | .add, _, _ => onFloats (· + ·) a b
  | .sub, .int x, .int y => .ok (.int (x - y))
  | .sub, _, _ => onFloats (· - ·) a b
  | .mul, .int x, .int y => .ok (.int (x * y))
  | .mul, _, _ => onFloats (· * ·) a b
  | .mod, .int x, .int y =>
    if y == 0 then .error .remainderByZero else .ok (.int (Int64.ofInt (x.toInt.fmod y.toInt)))
  | .mod, _, _ => onFloats floatMod a b
  | .floorDiv, .int x, .int y =>
    if y == 0 then .error .divideByZero else .ok (.int (Int64.ofInt (x.toInt.fdiv y.toInt)))
  | .floorDiv, _, _ => onFloats (fun x y => (x / y).floor) a b
  | .pow, _, _ => onFloats floatPow a b
  | .div, _, _ => onFloats (· / ·) a b
  | .bitAnd, _, _ => onIntegers (· &&& ·) a b
  | .bitOr, _, _ => onIntegers (· ||| ·) a b
  | .bitXor, _, _ => onIntegers (· ^^^ ·) a b
  | .shiftLeft, _, _ => onIntegers shiftLeft a b
  | .shiftRight, _, _ => onIntegers (fun x y => 
      if y.toInt ≤ -9223372036854775808 then 0 else shiftLeft x (-y)) a b

/-- How an integer compares with a number that may have a fraction; `none` for what is not a number. -/
def compareExact (i : Int) (x : Float) : Option Ordering :=
  match Numeral.Parts.ofFloat x with
  | .nan => none
  | .infinite negative => some (if negative then .gt else .lt)
  | .finite negative mantissa exponent =>
    let m : Int := if negative then -(mantissa : Int) else mantissa
    if 0 ≤ exponent then some (compare i (m * Nat.pow 2 exponent.toNat))
    else some (compare (i * Nat.pow 2 (-exponent).toNat) m)

def equal (a b : Number) : Bool :=
  match a, b with
  | .int x, .int y => x == y
  | .float x, .float y => x == y
  | .int i, .float x => compareExact i.toInt x == some .eq
  | .float x, .int i => compareExact i.toInt x == some .eq

def less (a b : Number) : Bool :=
  match a, b with
  | .int x, .int y => x < y
  | .float x, .float y => x < y
  | .int i, .float x => compareExact i.toInt x == some .lt
  | .float x, .int i => compareExact i.toInt x == some .gt

def lessEqual (a b : Number) : Bool :=
  match a, b with
  | .int x, .int y => x ≤ y
  | .float x, .float y => x <= y
  | .int i, .float x => compareExact i.toInt x == some .lt || compareExact i.toInt x == some .eq
  | .float x, .int i => compareExact i.toInt x == some .gt || compareExact i.toInt x == some .eq

/-- The result that an operator on two numbers has before a script runs. Results that could be zero with a
sign, or no number, are left to the run. -/
def fold? (op : ArithOp) (a b : Number) : Option Number :=
  let byZero := (op == .div || op == .floorDiv || op == .mod) && b.equal (.int 0)
  if byZero then none
  else
    match arith op a b with
    | .ok (.int i) => some (.int i)
    | .ok (.float x) => if x == 0 || x != x then none else some (.float x)
    | .error _ => none

/-- The result that a sign or a complement in front of a number has before a script runs. -/
def foldUnary? (op : UnaryOp) (a : Number) : Option Number :=
  match op, a with
  | .negate, .int i => some (.int (-i))
  | .negate, .float x => if x == 0 || x != x then none else some (.float (-x))
  | .complement, _ => a.toInt64?.map fun i => .int (~~~i)
  | _, _ => none

end Number
end ScriptHost.Lua
