/-! Binary floating-point numbers as exact ratios: taking a number apart and rounding a ratio to the
nearest number, ties to the even mantissa. -/
namespace ScriptHost.Numeral

/-- A floating-point number taken apart. A finite one is `mantissa * 2 ^ exponent` with its sign. -/
inductive Parts where
  | nan
  | infinite (negative : Bool)
  | finite (negative : Bool) (mantissa : Nat) (exponent : Int)
  deriving Repr

def Parts.ofFloat (x : Float) : Parts :=
  let bits : Nat := x.toBits.toNat
  let negative := bits / Nat.pow 2 63 == 1
  let biased : Nat := bits / Nat.pow 2 52 % Nat.pow 2 11
  let fraction : Nat := bits % Nat.pow 2 52
  if biased == 2047 then
    if fraction == 0 then .infinite negative else .nan
  else if biased == 0 then .finite negative fraction (-1074)
  else .finite negative (fraction + Nat.pow 2 52) ((biased : Int) - 1075)

/-- `num / den` rounded to the nearest natural number, ties to even. -/
def roundRatio (num den : Nat) : Nat :=
  let q := num / den
  let twice := 2 * (num % den)
  if twice < den then q
  else if den < twice then q + 1
  else if q % 2 == 0 then q else q + 1

/-- The bits of the finite or infinite number with the given mantissa and exponent, for a mantissa of at
most 53 bits that is full unless the exponent is the least. -/
private def composeBits (mantissa : Nat) (exponent : Int) : Nat :=
  if mantissa < Nat.pow 2 52 then mantissa
  else
    let biased := (exponent + 1075).toNat
    if 2047 ≤ biased then 2047 * Nat.pow 2 52 else biased * Nat.pow 2 52 + (mantissa - Nat.pow 2 52)

private def scaleDown (num den : Nat) (shift : Int) : Nat × Nat :=
  if 0 ≤ shift then (num, den * Nat.pow 2 shift.toNat) else (num * Nat.pow 2 (-shift).toNat, den)

/-- The floating-point number nearest to the ratio `num / den`; `den` is not zero. -/
def ofRatio (negative : Bool) (num den : Nat) : Float :=
  let sign := if negative then Nat.pow 2 63 else 0
  if num == 0 then Float.ofBits (Nat.toUInt64 sign)
  else
    let guess : Int := (num.log2 : Int) - (den.log2 : Int) - 52
    let short := let (n, d) := scaleDown num den guess; n / d < Nat.pow 2 52
    let exponent := max (if short then guess - 1 else guess) (-1074)
    let (n, d) := scaleDown num den exponent
    let rounded := roundRatio n d
    let (mantissa, exponent) :=
      if rounded == Nat.pow 2 53 then (Nat.pow 2 52, exponent + 1) else (rounded, exponent)
    if 971 < exponent then Float.ofBits (Nat.toUInt64 (sign + 2047 * Nat.pow 2 52))
    else Float.ofBits (sign + composeBits mantissa exponent).toUInt64

private theorem composeBits_normal {mantissa : Nat} {exponent : Int} (hm : ¬ mantissa < Nat.pow 2 52)
    (he : exponent ≤ 971) :
    composeBits mantissa exponent =
      (exponent + 1075).toNat * Nat.pow 2 52 + (mantissa - Nat.pow 2 52) := by
  have hbiased : ¬ 2047 ≤ (exponent + 1075).toNat := by omega
  unfold composeBits
  rw [if_neg hm]
  exact if_neg hbiased

private theorem scaleDown_one (n : Nat) :
    scaleDown n 1 ((n.log2 : Int) - 52) = (n * Nat.pow 2 (52 - n.log2), Nat.pow 2 (n.log2 - 52)) := by
  unfold scaleDown
  split
  · next h =>
    rw [Nat.sub_eq_zero_of_le (by omega), show ((n.log2 : Int) - 52).toNat = n.log2 - 52 by omega, Nat.one_mul]
    exact congrArg (·, _) (Nat.mul_one n).symm
  · next h =>
    rw [Nat.sub_eq_zero_of_le (m := 52) (by omega), show (-((n.log2 : Int) - 52)).toNat = 52 - n.log2 by omega]

/-- The bits of an integer rounded to 53 binary digits. A carry into one more digit goes on into the exponent. -/
theorem ofRatio_one (negative : Bool) {n : Nat} (hn : n ≠ 0) (hlog : n.log2 ≤ 63)
    (hfull : Nat.pow 2 52 ≤ n * Nat.pow 2 (52 - n.log2) / Nat.pow 2 (n.log2 - 52))
    (hlow : Nat.pow 2 52 ≤ roundRatio (n * Nat.pow 2 (52 - n.log2)) (Nat.pow 2 (n.log2 - 52))) :
    ofRatio negative n 1 =
      Float.ofBits ((if negative then Nat.pow 2 63 else 0) +
        ((n.log2 + 1022) * Nat.pow 2 52 +
          roundRatio (n * Nat.pow 2 (52 - n.log2)) (Nat.pow 2 (n.log2 - 52)))).toUInt64 := by
  have hone : Nat.log2 1 = 0 := by decide
  have hguess : max ((n.log2 : Int) - 52) (-1074) = (n.log2 : Int) - 52 := by omega
  have hunit : Nat.pow 2 52 = 4503599627370496 := by decide
  have hdouble : Nat.pow 2 53 = 2 * Nat.pow 2 52 := by decide
  unfold ofRatio
  simp only [beq_iff_eq, hn, if_false, hone, Int.natCast_zero, Int.sub_zero, scaleDown_one, hguess,
    Nat.not_lt.mpr hfull, hdouble]
  generalize roundRatio (n * Nat.pow 2 (52 - n.log2)) (Nat.pow 2 (n.log2 - 52)) = r at hlow
  by_cases hr : r = 2 * Nat.pow 2 52
  · have hbits : ((n.log2 : Int) - 52 + 1 + 1075).toNat * Nat.pow 2 52 + (Nat.pow 2 52 - Nat.pow 2 52) =
        (n.log2 + 1022) * Nat.pow 2 52 + r := by
      rw [hr, hunit]
      omega
    rw [if_pos hr, if_neg (by omega), composeBits_normal (Nat.lt_irrefl _) (by omega), hbits]
  · have hbits : ((n.log2 : Int) - 52 + 1075).toNat * Nat.pow 2 52 + (r - Nat.pow 2 52) =
        (n.log2 + 1022) * Nat.pow 2 52 + r := by
      rw [hunit] at hlow ⊢
      omega
    rw [if_neg hr, if_neg (by omega), composeBits_normal (Nat.not_lt.mpr hlow) (by omega), hbits]

/-- `mantissa * base ^ exponent` rounded to the nearest number. Exponents so far out that the answer is
zero or infinite are not expanded. -/
def ofScaled (negative : Bool) (mantissa base : Nat) (exponent : Int) : Float :=
  if mantissa == 0 then ofRatio negative 0 1
  else if 0 ≤ exponent then
    if 1100 < exponent then ofRatio negative (Nat.pow 2 1100) 1
    else ofRatio negative (mantissa * Nat.pow base exponent.toNat) 1
  else
    if (mantissa.log2 : Int) + 1200 < -exponent then ofRatio negative 1 (Nat.pow 2 1200)
    else ofRatio negative mantissa (Nat.pow base (-exponent).toNat)

def infinity (negative : Bool) : Float :=
  Float.ofBits (if negative then 0xFFF0000000000000 else 0x7FF0000000000000)

def nan : Float := Float.ofBits 0x7FF8000000000000

private def wholePart (mantissa : Nat) (exponent : Int) : Nat :=
  if 0 ≤ exponent then mantissa * Nat.pow 2 exponent.toNat else mantissa / Nat.pow 2 (-exponent).toNat

private def isWhole (mantissa : Nat) (exponent : Int) : Bool :=
  0 ≤ exponent || mantissa % Nat.pow 2 (-exponent).toNat == 0

private def signed (negative : Bool) (magnitude : Nat) : Int :=
  if negative then -(magnitude : Int) else magnitude

def integral? (x : Float) : Option Int :=
  match Parts.ofFloat x with
  | .finite negative mantissa exponent =>
    if isWhole mantissa exponent then some (signed negative (wholePart mantissa exponent)) else none
  | _ => none

def floor? (x : Float) : Option Int :=
  match Parts.ofFloat x with
  | .finite negative mantissa exponent =>
    let whole := signed negative (wholePart mantissa exponent)
    some (if negative && !isWhole mantissa exponent then whole - 1 else whole)
  | _ => none

def ceiling? (x : Float) : Option Int :=
  match Parts.ofFloat x with
  | .finite negative mantissa exponent =>
    let whole := signed negative (wholePart mantissa exponent)
    some (if !negative && !isWhole mantissa exponent then whole + 1 else whole)
  | _ => none

def inRange64 (i : Int) : Bool := -9223372036854775808 ≤ i && i < 9223372036854775808

theorem inRange64_iff {i : Int} : inRange64 i ↔ -9223372036854775808 ≤ i ∧ i < 9223372036854775808 := by
  simp only [inRange64, Bool.and_eq_true, decide_eq_true_eq]

def toInt64? (x : Float) : Option Int64 :=
  match integral? x with
  | some i => if inRange64 i then some (Int64.ofInt i) else none
  | none => none

/-- The number without its fraction as a 64-bit integer; the nearest end of the range if it lies outside,
and zero for what is not a number. -/
def truncateToInt64 (x : Float) : Int64 :=
  match Parts.ofFloat x with
  | .nan => 0
  | .infinite negative => if negative then Int64.minValue else Int64.maxValue
  | .finite negative mantissa exponent =>
    let i := signed negative (wholePart mantissa exponent)
    if i < -9223372036854775808 then Int64.minValue
    else if 9223372036854775807 < i then Int64.maxValue
    else Int64.ofInt i

theorem truncateToInt64_of_finite {x : Float} {negative : Bool} {mantissa : Nat} {exponent : Int}
    (h : Parts.ofFloat x = .finite negative mantissa exponent) :
    truncateToInt64 x =
      let whole :=
        if 0 ≤ exponent then mantissa * Nat.pow 2 exponent.toNat else mantissa / Nat.pow 2 (-exponent).toNat
      let i : Int := if negative then -(whole : Int) else whole
      if i < -9223372036854775808 then Int64.minValue
      else if 9223372036854775807 < i then Int64.maxValue
      else Int64.ofInt i := by
  rw [truncateToInt64, h]
  rfl

def ofInt (i : Int) : Float := ofRatio (i < 0) i.natAbs 1

/-- The remainder of the truncating division, with the sign of the dividend; exact. -/
def fmod (x y : Float) : Float :=
  match Parts.ofFloat x, Parts.ofFloat y with
  | .finite negative m e, .finite _ m' e' =>
    if m' == 0 then nan
    else
      let low := min e e'
      let a := m * Nat.pow 2 (e - low).toNat
      let b := m' * Nat.pow 2 (e' - low).toNat
      let r := a % b
      if 0 ≤ low then ofRatio negative (r * Nat.pow 2 low.toNat) 1
      else ofRatio negative r (Nat.pow 2 (-low).toNat)
  | .finite _ _ _, .infinite _ => x
  | _, _ => nan

end ScriptHost.Numeral
