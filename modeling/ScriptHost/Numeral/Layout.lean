import ScriptHost.Numeral.Rendering
/-! Numbers in a field: with a sign, a width, a precision and the characters that fill the field. -/
namespace ScriptHost.Numeral

structure Layout where
  /-- The text stands on the left. -/
  left : Bool := false
  /-- Positive numbers have a sign. -/
  plus : Bool := false
  /-- Positive numbers have a blank in place of a sign. -/
  blank : Bool := false
  /-- The base, the mark and the zeros at the end are shown. -/
  alternate : Bool := false
  /-- Zeros fill the field. -/
  zero : Bool := false
  width : Nat := 0
  precision : Option Nat := none
  deriving DecidableEq, Repr

namespace Layout

def pad (l : Layout) (s : String) : String :=
  let blanks := String.ofList (List.replicate (l.width - s.length) ' ')
  if l.left then s ++ blanks else blanks ++ s

def field (l : Layout) (front body : String) (allowsZeros : Bool) : String :=
  if l.zero && !l.left && allowsZeros then front ++ padZeros (l.width - front.length) body
  else l.pad (front ++ body)

def sign (l : Layout) (negative : Bool) : String :=
  if negative then "-" else if l.plus then "+" else if l.blank then " " else ""

/-- The digits of a number in a base, as many as the precision wants. -/
def integerDigits (l : Layout) (base n : Nat) : String :=
  match l.precision with
  | some p => if n == 0 && p == 0 then "" else padZeros p (digits base n)
  | none => digits base n

def signed (l : Layout) (i : Int) : String :=
  l.field (l.sign (i < 0)) (l.integerDigits 10 i.natAbs) l.precision.isNone

def unsigned (l : Layout) (base n : Nat) : String :=
  let body := l.integerDigits base n
  let body := if l.alternate && base == 8 && !body.startsWith "0" then "0" ++ body else body
  l.field (if l.alternate && base == 16 && n != 0 then "0x" else "") body l.precision.isNone

/-- A magnitude with a hexadecimal mantissa and a binary exponent. The digit in front of the mark is one, but
zero for the smallest numbers. -/
def hexadecimal (mantissa : Nat) (exponent : Int) (precision : Option Nat) (keepMark : Bool) : String :=
  let power : Int := if mantissa == 0 then 0 else exponent + 52
  let (scaled, places) := match precision with
    | some p =>
      if p < 13 then (roundRatio mantissa (Nat.pow 2 (52 - 4 * p)), p)
      else (mantissa * Nat.pow 16 (p - 13), p)
    | none => (mantissa, 13)
  let fraction := padZeros places (digits 16 (scaled % Nat.pow 16 places))
  let fraction := if places == 0 then "" else fraction
  let fraction := if precision.isSome then fraction
    else String.ofList (fraction.toList.reverse.dropWhile (· == '0')).reverse
  let mark := if fraction.isEmpty && !keepMark then "" else "."
  digits 16 (scaled / Nat.pow 16 places) ++ mark ++ fraction ++ "p" ++ (if power < 0 then "-" else "+") ++
    digits 10 power.natAbs

inductive Style where
  | fixed
  | scientific
  | general
  | hexadecimal
  deriving DecidableEq, Repr

def float (l : Layout) (style : Style) (x : Float) : String :=
  match Parts.ofFloat x with
  | .nan => l.pad (l.sign (x.toBits.toNat / Nat.pow 2 63 == 1) ++ "nan")
  | .infinite negative => l.pad (l.sign negative ++ "inf")
  | .finite negative mantissa exponent =>
    let places := l.precision.getD 6
    let front := l.sign negative
    match style with
    | .fixed => l.field front (Numeral.fixed mantissa exponent places l.alternate) true
    | .scientific => l.field front (Numeral.scientific mantissa exponent places l.alternate) true
    | .general => l.field front (Numeral.general mantissa exponent places l.alternate) true
    | .hexadecimal =>
      l.field (front ++ "0x") (hexadecimal mantissa exponent l.precision l.alternate) true

end Layout
end ScriptHost.Numeral
