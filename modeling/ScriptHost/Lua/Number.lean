import ScriptHost.Text.Utf8
import ScriptHost.Numeral.Rendering
/-! Numbers of scripts: integers of 64 bits that wrap around, and floating-point numbers; the texts that
spell them, and the texts they have. -/
namespace ScriptHost.Lua
open Text (Bytes)

inductive Number where
  | int (i : Int64)
  | float (x : Float)

namespace Number

def toFloat : Number → Float
  | .int i => Numeral.ofInt i.toInt
  | .float x => x

def toInt64? : Number → Option Int64
  | .int i => some i
  | .float x => Numeral.toInt64? x

def negate : Number → Number
  | .int i => .int (-i)
  | .float x => .float (-x)

end Number

/-- Bytes that count as blanks around numbers and between tokens. -/
def isSpace (b : UInt8) : Bool := b == 32 || (9 ≤ b && b ≤ 13)

def isDigit (b : UInt8) : Bool := 48 ≤ b && b ≤ 57

def hexDigit? (b : UInt8) : Option Nat :=
  if isDigit b then some (b.toNat - 48)
  else if 97 ≤ b && b ≤ 102 then some (b.toNat - 87)
  else if 65 ≤ b && b ≤ 70 then some (b.toNat - 55)
  else none

def isHexDigit (b : UInt8) : Bool := (hexDigit? b).isSome

def isLetter (b : UInt8) : Bool := (97 ≤ b && b ≤ 122) || (65 ≤ b && b ≤ 90) || b == 95

namespace Number

def spell (base : Nat) (digits : List UInt8) : Nat :=
  digits.foldl (fun n b => n * base + (hexDigit? b).getD 0) 0

def trim (cs : List UInt8) : List UInt8 :=
  ((cs.dropWhile isSpace).reverse.dropWhile isSpace).reverse

def splitSign : List UInt8 → Bool × List UInt8
  | 45 :: rest => (true, rest)
  | 43 :: rest => (false, rest)
  | cs => (false, cs)

def splitHexMark : List UInt8 → Option (List UInt8)
  | 48 :: 120 :: rest => some rest
  | 48 :: 88 :: rest => some rest
  | _ => none

/-- An integer, without blanks. Hexadecimal ones wrap around; decimal ones have to fit. -/
def readInt? (cs : List UInt8) : Option Int64 :=
  let (negative, body) := splitSign cs
  match splitHexMark body with
  | some digits =>
    if digits.isEmpty || !digits.all isHexDigit then none
    else
      let n : Int := spell 16 digits
      some (Int64.ofInt (if negative then -n else n))
  | none =>
    if body.isEmpty || !body.all isDigit then none
    else
      let n : Int := spell 10 body
      let i := if negative then -n else n
      if Numeral.inRange64 i then some (Int64.ofInt i) else none

def readExponent? (cs : List UInt8) : Option Int :=
  let (negative, body) := splitSign cs
  if body.isEmpty || !body.all isDigit then none
  else
    let n : Int := spell 10 body
    some (if negative then -n else n)

def readScaled? (negative : Bool) (base : Nat) (scaleBase digitBits : Nat) (isDigit : UInt8 → Bool)
    (letter : UInt8) (cs : List UInt8) : Option Float :=
  let whole := cs.takeWhile isDigit
  let rest := cs.dropWhile isDigit
  let (fraction, rest) := match rest with
    | 46 :: tail => (tail.takeWhile isDigit, tail.dropWhile isDigit)
    | _ => ([], rest)
  if whole.isEmpty && fraction.isEmpty then none
  else
    let exponent? : Option Int := match rest with
      | [] => some 0
      | b :: tail => if b == letter || b == letter - 32 then readExponent? tail else none
    exponent?.map fun e =>
      Numeral.ofScaled negative (spell base (whole ++ fraction)) scaleBase
        (e - (fraction.length * digitBits : Nat))

def readFloat? (cs : List UInt8) : Option Float :=
  let (negative, body) := splitSign cs
  match splitHexMark body with
  | some rest => readScaled? negative 16 2 4 isHexDigit 112 rest
  | none => readScaled? negative 10 10 1 isDigit 101 body

def read? (cs : List UInt8) : Option Number :=
  let body := trim cs
  match readInt? body with
  | some i => some (.int i)
  | none => (readFloat? body).map .float

def ofBytes? (s : Bytes) : Option Number := read? s.data.toList

def intText (i : Int64) : String := toString i.toInt

/-- A floating-point number with fourteen significant digits. One that would look like an integer gets a
fraction. -/
def floatText (x : Float) : String :=
  match Numeral.Parts.ofFloat x with
  | .nan => if x.toBits.toNat / Nat.pow 2 63 == 1 then "-nan" else "nan"
  | .infinite negative => if negative then "-inf" else "inf"
  | .finite negative mantissa exponent =>
    let s := Numeral.general mantissa exponent 14 false
    (if negative then "-" else "") ++ (if s.all Char.isDigit then s ++ ".0" else s)

end Number
end ScriptHost.Lua
