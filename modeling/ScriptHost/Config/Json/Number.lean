import ScriptHost.Config.Json.Cursor
import ScriptHost.Config.Wording
/-! Reading and skipping numbers in a JSON text. A read number is an integer if its digits fit into 64 bits and
it has neither a fraction nor an exponent. -/
namespace ScriptHost.Config.Json

/-- The largest number that the digits of a number are collected into. -/
private def digitLimit : Nat := Nat.pow 2 64

/-- Collects digits onto `value` while the result fits into 64 bits. Returns the value, the number of digits
taken, and whether a digit was left because of the limit. -/
private def collectDigits : Nat → Nat → Nat → Reader (Nat × Nat × Bool)
  | 0, value, taken => return (value, taken, false)
  | fuel + 1, value, taken => do
    match ← peek with
    | some b =>
      if isDigit b then
        let value' := value * 10 + (b.toNat - 48)
        if digitLimit ≤ value' then return (value, taken, true)
        else
          skip
          collectDigits fuel value' (taken + 1)
      else return (value, taken, false)
    | none => return (value, taken, false)

private def digitsOnto (value : Nat) : Reader (Nat × Nat × Bool) := do
  let n ← remaining
  collectDigits (n + 1) value 0

/-- Scales digits by a power of ten, in steps that each round. -/
private def scale : Nat → Float → Int → Reader Float
  | 0, x, _ => return x
  | fuel + 1, x, exponent =>
    if exponent.natAbs ≤ 308 then
      if 0 ≤ exponent then
        let y := x * Numeral.ofScaled false 1 10 exponent
        if y == Numeral.infinity false then failHere .numberOutOfRange else return y
      else return x / Numeral.ofScaled false 1 10 (-exponent)
    else if x == 0 then return x
    else if 0 ≤ exponent then failHere .numberOutOfRange
    else scale fuel (x / 1e308) (exponent + 308)

private def assemble (positive : Bool) (digits : Nat) (exponent : Int) : Reader Found := do
  let x ← scale 8 (Numeral.ofInt digits) exponent
  return .float (if positive then x else -x)

private def readExponent (positive : Bool) (digits : Nat) (start : Int) : Reader Found := do
  skip
  let up ← match ← peek with
    | some 43 => do skip; pure true
    | some 45 => do skip; pure false
    | _ => pure true
  match ← next with
  | none => failHere .endInValue
  | some b =>
    if isDigit b then
      let n ← remaining
      let c ← get
      let run := runLength isDigit c.text n c.index
      let step : Nat × Nat × Bool → UInt8 → Nat × Nat × Bool := fun (value, taken, exceeded) d =>
        if exceeded then (value, taken, exceeded)
        else
          let value' := value * 10 + (d.toNat - 48)
          if 2147483647 < value' then (value, taken + 1, true) else (value', taken + 1, false)
      let (value, taken, exceeded) :=
        (c.text.extract c.index (c.index + run)).foldl step (b.toNat - 48, 0, false)
      set { c with index := c.index + taken }
      if exceeded then
        if digits != 0 && up then failHere .numberOutOfRange
        else
          let _ ← skipWhile isDigit
          return .float (if positive then 0.0 else -0.0)
      else assemble positive digits (if up then start + value else start - value)
    else failHere .invalidNumber

private def readFraction (positive : Bool) (digits : Nat) (start : Int) : Reader Found := do
  skip
  let (value, taken, exceeded) ← digitsOnto digits
  if exceeded then
    let _ ← skipWhile isDigit
  else if taken == 0 then
    match ← peek with
    | some _ => failNext .invalidNumber
    | none => failNext .endInValue
  let exponent := start - taken
  match ← peek with
  | some 101 | some 69 => readExponent positive value exponent
  | _ => assemble positive value exponent

def readNumber (positive : Bool) : Reader Found := do
  match ← next with
  | none => failHere .endInValue
  | some b =>
    if !isDigit b then failHere .invalidNumber
    else
      let (value, _, exceeded) ←
        if b == 48 then do
          match ← peek with
          | some d => if isDigit d then failNext .invalidNumber else pure (0, 0, false)
          | none => pure (0, 0, false)
        else digitsOnto (b.toNat - 48)
      let dropped ← if exceeded then skipWhile isDigit else pure 0
      match ← peek with
      | some 46 => readFraction positive value dropped
      | some 101 | some 69 => readExponent positive value dropped
      | _ =>
        if exceeded then assemble positive value dropped
        else if positive then return .integer value
        else if value == 0 || Nat.pow 2 63 < value then return .float (-(Numeral.ofInt value))
        else return .integer (-(value : Int))

def skipExponent : Reader Unit := do
  skip
  match ← peek with
  | some 43 | some 45 => skip
  | _ => pure ()
  match ← next with
  | some b =>
    if isDigit b then
      let _ ← skipWhile isDigit
    else failHere .invalidNumber
  | none => failHere .invalidNumber

def skipNumber : Reader Unit := do
  match ← next with
  | some 48 =>
    match ← peek with
    | some d => if isDigit d then failNext .invalidNumber
    | none => pure ()
  | some b =>
    if isDigit b then
      let _ ← skipWhile isDigit
    else failHere .invalidNumber
  | none => failHere .invalidNumber
  match ← peek with
  | some 46 =>
    skip
    let n ← skipWhile isDigit
    if n == 0 then failNext .invalidNumber
    match ← peek with
    | some 101 | some 69 => skipExponent
    | _ => pure ()
  | some 101 | some 69 => skipExponent
  | _ => pure ()

end ScriptHost.Config.Json
