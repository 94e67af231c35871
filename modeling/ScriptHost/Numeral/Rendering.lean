import ScriptHost.Numeral.Binary64
/-! The text of numbers: a fixed count of places, a fixed count of significant digits, or the fewest
digits that read back. Rounding is exact, ties to even. -/
namespace ScriptHost.Numeral

def digits (base n : Nat) : String := String.ofList (Nat.toDigits base n)

def zeros (n : Nat) : String := String.ofList (List.replicate n '0')

def padZeros (width : Nat) (s : String) : String := zeros (width - s.length) ++ s

def ratio (mantissa : Nat) (exponent : Int) : Nat × Nat :=
  if 0 ≤ exponent then (mantissa * Nat.pow 2 exponent.toNat, 1) else (mantissa, Nat.pow 2 (-exponent).toNat)

/-- `num / den * 10 ^ places`, rounded. -/
private def roundAt (num den : Nat) (places : Int) : Nat :=
  if 0 ≤ places then roundRatio (num * Nat.pow 10 places.toNat) den
  else roundRatio num (den * Nat.pow 10 (-places).toNat)

private def powerFits (num den : Nat) (x : Int) : Bool :=
  if 0 ≤ x then den * Nat.pow 10 x.toNat ≤ num else den ≤ num * Nat.pow 10 (-x).toNat

/-- The exponent of the leading decimal digit of a positive ratio. The estimate from the binary
logarithms is short by at most two. -/
def leadingExponent (num den : Nat) : Int :=
  let low : Int := (((num.log2 : Int) - den.log2 - 1) * 30103).fdiv 100000 - 1
  let low := if powerFits num den (low + 1) then low + 1 else low
  let low := if powerFits num den (low + 1) then low + 1 else low
  if powerFits num den (low + 1) then low + 1 else low

/-- The first `count` significant digits of a positive ratio, and the exponent of the first of them. -/
def significant (num den count : Nat) : Nat × Int :=
  let x := leadingExponent num den
  let d := roundAt num den ((count : Int) - 1 - x)
  if Nat.pow 10 count ≤ d then (d / 10, x + 1) else (d, x)

/-- Digits with the mark after the first `whole` of them; `keepMark` leaves it where nothing follows. -/
private def withMark (s : String) (whole : Nat) (keepMark : Bool) : String :=
  let front := String.ofList (s.toList.take whole)
  let back := String.ofList (s.toList.drop whole)
  if back.isEmpty && !keepMark then front else front ++ "." ++ back

def fixed (mantissa : Nat) (exponent : Int) (places : Nat) (keepMark : Bool) : String :=
  let (num, den) := ratio mantissa exponent
  let s := padZeros (places + 1) (digits 10 (roundAt num den places))
  withMark s (s.length - places) keepMark

private def exponentText (x : Int) : String :=
  "e" ++ (if x < 0 then "-" else "+") ++ padZeros 2 (digits 10 x.natAbs)

def scientific (mantissa : Nat) (exponent : Int) (places : Nat) (keepMark : Bool) : String :=
  if mantissa == 0 then withMark (zeros (places + 1)) 1 keepMark ++ exponentText 0
  else
    let (num, den) := ratio mantissa exponent
    let (d, x) := significant num den (places + 1)
    withMark (digits 10 d) 1 keepMark ++ exponentText x

/-- Digits after the mark without the zeros at their end, and without the mark if none is left. -/
private def dropTrailingZeros (s : String) : String :=
  let rest := s.toList.reverse.dropWhile (· == '0')
  String.ofList (match rest with
    | '.' :: front => front.reverse
    | _ => rest.reverse)

/-- A magnitude with `count` significant digits: positional for exponents from minus four up to `count`,
else with an exponent. `alternate` keeps the mark and the zeros at the end. -/
def general (mantissa : Nat) (exponent : Int) (count : Nat) (alternate : Bool) : String :=
  let count := max count 1
  let x : Int :=
    if mantissa == 0 then 0
    else let (num, den) := ratio mantissa exponent; (significant num den count).2
  if -4 ≤ x && x < count then
    let s := fixed mantissa exponent ((count : Int) - 1 - x).toNat alternate
    if alternate || !s.contains '.' then s else dropTrailingZeros s
  else if alternate then scientific mantissa exponent (count - 1) true
  else
    let (num, den) := ratio mantissa exponent
    let (d, x) := significant num den count
    let s := withMark (digits 10 d) 1 false
    (if s.contains '.' then dropTrailingZeros s else s) ++ exponentText x

/-- The fewest significant digits, between one and seventeen, that read back as the number, with the
exponent of the first. -/
def shortest (mantissa : Nat) (exponent : Int) : Nat × Int :=
  let (num, den) := ratio mantissa exponent
  let target := ofScaled false mantissa 2 exponent
  let rec search : Nat → Nat → Nat × Int
    | 0, count => significant num den count
    | left + 1, count =>
      let (d, x) := significant num den count
      if (ofScaled false d 10 (x - ((count : Int) - 1))).toBits == target.toBits then (d, x)
      else search left (count + 1)
  search 16 1

end ScriptHost.Numeral
