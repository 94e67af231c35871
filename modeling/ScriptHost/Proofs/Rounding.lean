import Mathlib
import ScriptHost.Numeral.Binary64

/-! Integers as floating-point numbers and back. Of an integer the first 53 binary digits are kept, rounded to the
nearest, and the way back keeps what it is given but for what lies outside the range. -/
namespace ScriptHost.Numeral
open Float.Model Float.Model.UnpackedFloat

/-! The bits of a number are the ones that it was made of. -/

theorem packComponents_unpack {spec : Format} (v : BitVec spec.numBits) :
    packComponents spec (Sign.ofBitVec (unpackSign v)) (unpackExponent v) (unpackMantissa v) = v := by
  obtain ⟨m, hm, e, he⟩ := spec
  have hsign (w : BitVec 1) : (Sign.ofBitVec w).toBitVec = w := by revert w; decide
  apply BitVec.eq_of_getLsbD_eq
  intro i hi
  rw [packComponents, hsign, BitVec.getLsbD_append, BitVec.getLsbD_append]
  simp only [unpackSign, unpackExponent, unpackMantissa, BitVec.getLsbD_cast, BitVec.getLsbD_extractLsb]
  dsimp only [Format.numBits] at hi ⊢
  split
  · rw [decide_eq_true (by omega), Bool.true_and, Nat.zero_add]
  · split
    · rw [decide_eq_true (by omega), Bool.true_and, Nat.add_sub_cancel' (by omega)]
    · rw [decide_eq_true (by omega), Bool.true_and, Nat.sub_sub, Nat.add_sub_cancel' (by omega)]

/-- The leading digit of a normal number is not stored. -/
theorem toNat_mantissa {width : Nat} (mantissa : BitVec width) :
    (1#1 ++ mantissa).toNat = 2 ^ width + mantissa.toNat := by
  rw [BitVec.toNat_append, ← Nat.shiftLeft_add_eq_or_of_lt mantissa.isLt]
  simp [Nat.shiftLeft_eq]

theorem pack_unpack {spec : Format} {v : BitVec spec.numBits} (hzero : unpackExponent v ≠ 0#_)
    (hones : unpackExponent v ≠ -1#_) : UnpackedFloat.pack spec (UnpackedFloat.unpack spec v) = v := by
  have hlt := (unpackMantissa v).isLt
  have hm := toNat_mantissa (unpackMantissa v)
  have hlog : (1#1 ++ unpackMantissa v).toNat.log2 = spec.mantissaBitsWithoutImplicit := by
    rw [hm, Nat.log2_eq_iff (by have := Nat.two_pow_pos spec.mantissaBitsWithoutImplicit; omega)]
    omega
  have hbiased : (((unpackExponent v).toNat : Int) - (spec.exponentBias + spec.mantissaBitsWithoutImplicit) +
      spec.exponentBias + spec.mantissaBitsWithoutImplicit).toNat = (unpackExponent v).toNat := by omega
  have hexponent : (unpackExponent v).toNat + 1 ≠ 2 ^ spec.exponentBits := by
    intro heq
    refine hones (BitVec.eq_of_toNat_eq ?_)
    rw [BitVec.neg_one_eq_allOnes, BitVec.toNat_allOnes]
    omega
  have hmantissa : BitVec.ofNat spec.mantissaBitsWithoutImplicit (1#1 ++ unpackMantissa v).toNat =
      unpackMantissa v := by
    apply BitVec.eq_of_toNat_eq
    rw [hm, BitVec.toNat_ofNat, Nat.add_mod_left, Nat.mod_eq_of_lt hlt]
  have hisLt := (unpackExponent v).isLt
  rw [UnpackedFloat.unpack]
  simp only [if_neg hzero, if_neg hones]
  rw [UnpackedFloat.pack]
  simp only [hbiased, hlog, hmantissa, BitVec.ofNat_toNat, BitVec.setWidth_eq]
  rw [if_neg (by omega), if_pos (show _ = spec.mantissaBits from Nat.add_comm _ _)]
  exact packComponents_unpack v

theorem toBits_ofBits {bits : UInt64} (hlow : 0 < bits.toNat / 2 ^ 52 % 2 ^ 11)
    (hhigh : bits.toNat / 2 ^ 52 % 2 ^ 11 < 2047) : (Float.ofBits bits).toBits = bits := by
  have hexponent : (@unpackExponent Format.binary64 bits.toBitVec).toNat = bits.toNat / 2 ^ 52 % 2 ^ 11 := by
    simp [unpackExponent, Nat.shiftRight_eq_div_pow]
  refine congrArg UInt64.ofBitVec (@pack_unpack Format.binary64 bits.toBitVec ?_ ?_) <;>
    intro heq <;> rw [heq] at hexponent <;> simp at hexponent <;> omega

/-- The parts of a normal number are read off its bits. -/
theorem ofFloat_ofBits (negative : Bool) {biased fraction : Nat} (hlow : 1 ≤ biased) (hhigh : biased < 2047)
    (hfraction : fraction < 2 ^ 52) :
    Parts.ofFloat (Float.ofBits ((if negative then 2 ^ 63 else 0) + (biased * 2 ^ 52 + fraction)).toUInt64) =
      .finite negative (fraction + 2 ^ 52) ((biased : Int) - 1075) := by
  have hsign : (if negative then 2 ^ 63 else 0) = negative.toNat * 2 ^ 63 := by cases negative <;> decide
  have hbool : negative.toNat ≤ 1 := Bool.toNat_le negative
  rw [hsign]
  generalize hbits : negative.toNat * 2 ^ 63 + (biased * 2 ^ 52 + fraction) = bits
  have htoNat : bits.toUInt64.toNat = bits := by
    rw [Nat.toUInt64, UInt64.toNat_ofNat', Nat.mod_eq_of_lt (by omega)]
  have hnegative : bits / 2 ^ 63 = negative.toNat := by omega
  have hbiased : bits / 2 ^ 52 % 2 ^ 11 = biased := by omega
  have hrest : bits % 2 ^ 52 = fraction := by omega
  have htoBits : (Float.ofBits bits.toUInt64).toBits = bits.toUInt64 := by
    apply toBits_ofBits <;> rw [htoNat] <;> omega
  have hnormal : biased ≠ 2047 ∧ biased ≠ 0 := by omega
  simp only [Parts.ofFloat, htoBits, htoNat, Nat.pow_eq, hnegative, hbiased, hrest, beq_iff_eq, hnormal, if_false]
  cases negative <;> rfl

/-- An integer with its first 53 binary digits, rounded to the nearest and to the even one between two. -/
def rounded (n : Nat) : Nat := roundRatio n (2 ^ (n.log2 - 52)) * 2 ^ (n.log2 - 52)

theorem roundRatio_one (n : Nat) : roundRatio n 1 = n := by
  simp [roundRatio, Nat.mod_one]

/-- Rounding goes to one of the two multiples around a number, and not to the farther one. -/
theorem roundRatio_near (num : Nat) {den : Nat} (hden : 0 < den) :
    2 * (roundRatio num den * den) ≤ 2 * num + den ∧ 2 * num ≤ 2 * (roundRatio num den * den) + den := by
  have hdivision := Nat.div_add_mod' num den
  have hmod := Nat.mod_lt num hden
  have hsucc : (num / den + 1) * den = num / den * den + den := Nat.succ_mul _ _
  unfold roundRatio
  dsimp only
  split
  · omega
  · split
    · omega
    · split <;> omega

theorem roundRatio_mul (m : Nat) {den : Nat} (hden : 0 < den) : roundRatio (m * den) den = m := by
  simp [roundRatio, Nat.mul_div_cancel m hden, hden]

theorem div_le_roundRatio (num den : Nat) : num / den ≤ roundRatio num den := by
  unfold roundRatio
  dsimp only
  repeat' split
  all_goals omega

theorem roundRatio_le (num den : Nat) : roundRatio num den ≤ num / den + 1 := by
  unfold roundRatio
  dsimp only
  repeat' split
  all_goals omega

/-- What is kept of a number lies within half a unit of its last digit. -/
theorem rounded_near (n : Nat) : ((rounded n : Int) - n).natAbs * 2 ^ 53 ≤ n := by
  by_cases hn : n = 0
  · subst hn
    decide
  obtain ⟨hlow, hhigh⟩ := roundRatio_near n (Nat.two_pow_pos (n.log2 - 52))
  have hlog := Nat.log2_self_le hn
  by_cases hlong : 52 ≤ n.log2
  · have hpow : 2 ^ n.log2 = 2 ^ (n.log2 - 52) * 2 ^ 52 := by rw [← Nat.pow_add, Nat.sub_add_cancel hlong]
    unfold rounded
    omega
  · have hshift : n.log2 - 52 = 0 := by omega
    simp [rounded, hshift, roundRatio_one]

/-- Scaled by a power of two, a number has 53 digits before the point. -/
theorem two_pow_log2_le {n : Nat} (hn : n ≠ 0) : 2 ^ (n.log2 - 52) * 2 ^ 52 ≤ n * 2 ^ (52 - n.log2) := by
  calc 2 ^ (n.log2 - 52) * 2 ^ 52 = 2 ^ n.log2 * 2 ^ (52 - n.log2) := by
        rw [← Nat.pow_add, ← Nat.pow_add]
        congr 1
        omega
    _ ≤ n * 2 ^ (52 - n.log2) := Nat.mul_le_mul_right _ (Nat.log2_self_le hn)

theorem lt_two_pow_log2 (n : Nat) : n * 2 ^ (52 - n.log2) < 2 ^ 53 * 2 ^ (n.log2 - 52) := by
  calc n * 2 ^ (52 - n.log2) < 2 ^ (n.log2 + 1) * 2 ^ (52 - n.log2) :=
        Nat.mul_lt_mul_of_pos_right Nat.lt_log2_self (Nat.two_pow_pos _)
    _ = 2 ^ 53 * 2 ^ (n.log2 - 52) := by
        rw [← Nat.pow_add, ← Nat.pow_add]
        congr 1
        omega

/-- A number is left as it is if it has at most 53 digits, not counting zeros at the end. -/
theorem rounded_eq_self_iff (n : Nat) : rounded n = n ↔ ∃ m k, m < 2 ^ 53 ∧ n = m * 2 ^ k := by
  constructor
  · intro hsame
    have hdvd : 2 ^ (n.log2 - 52) ∣ n := ⟨roundRatio n (2 ^ (n.log2 - 52)), by
      rw [Nat.mul_comm]
      exact hsame.symm⟩
    refine ⟨n / 2 ^ (n.log2 - 52), n.log2 - 52, ?_, (Nat.div_mul_cancel hdvd).symm⟩
    have hlt : n < 2 ^ (n.log2 + 1) := Nat.lt_log2_self
    rw [Nat.div_lt_iff_lt_mul (Nat.two_pow_pos _), ← Nat.pow_add]
    exact Nat.lt_of_lt_of_le hlt (Nat.pow_le_pow_right (by decide) (by omega))
  · rintro ⟨m, k, hm, rfl⟩
    have hshift : (m * 2 ^ k).log2 - 52 ≤ k := by
      by_cases hzero : m * 2 ^ k = 0
      · simp [hzero]
      · have hlt : (m * 2 ^ k).log2 < 53 + k := by
          rw [Nat.log2_lt hzero, Nat.pow_add]
          exact Nat.mul_lt_mul_of_pos_right hm (Nat.two_pow_pos k)
        omega
    obtain ⟨c, hc⟩ : 2 ^ ((m * 2 ^ k).log2 - 52) ∣ m * 2 ^ k :=
      Nat.dvd_trans (Nat.pow_dvd_pow 2 hshift) (Nat.dvd_mul_left _ _)
    have hpos := Nat.two_pow_pos ((m * 2 ^ k).log2 - 52)
    unfold rounded
    generalize 2 ^ ((m * 2 ^ k).log2 - 52) = unit at hc hpos
    rw [hc, Nat.mul_comm unit c, roundRatio_mul c hpos]

/-- A finite number without its fraction, brought into the range. -/
theorem toInt_truncateToInt64 {x : Float} {negative : Bool} {mantissa whole : Nat} {exponent : Int}
    (hx : Parts.ofFloat x = .finite negative mantissa exponent)
    (hwhole : (if 0 ≤ exponent then mantissa * 2 ^ exponent.toNat else mantissa / 2 ^ (-exponent).toNat) = whole) :
    (truncateToInt64 x).toInt =
      max (-2 ^ 63) (min (if negative then -(whole : Int) else whole) (2 ^ 63 - 1)) := by
  simp only [truncateToInt64_of_finite hx, Nat.pow_eq, hwhole]
  generalize (if negative then -(whole : Int) else whole) = i
  split
  · rw [Int64.toInt_minValue]
    omega
  · split
    · rw [Int64.toInt_maxValue]
      omega
    · rw [Int64.toInt_ofInt_of_le (by omega) (by omega)]
      omega

/-- A natural number as a floating-point number and back is rounded and brought into the range. -/
theorem toInt_truncateToInt64_ofRatio (negative : Bool) {n : Nat} (hn : n ≠ 0) (hlog : n.log2 ≤ 63) :
    (truncateToInt64 (ofRatio negative n 1)).toInt =
      max (-2 ^ 63) (min (if negative then -(rounded n : Int) else rounded n) (2 ^ 63 - 1)) := by
  have hpos := Nat.two_pow_pos (n.log2 - 52)
  have hfull : 2 ^ 52 ≤ n * 2 ^ (52 - n.log2) / 2 ^ (n.log2 - 52) := by
    rw [Nat.le_div_iff_mul_le hpos, Nat.mul_comm]
    exact two_pow_log2_le hn
  have hlow := Nat.le_trans hfull (div_le_roundRatio _ _)
  have hshort : n * 2 ^ (52 - n.log2) / 2 ^ (n.log2 - 52) < 2 ^ 53 := by
    rw [Nat.div_lt_iff_lt_mul hpos]
    exact lt_two_pow_log2 n
  have hhigh := Nat.le_trans (roundRatio_le _ _) hshort
  have hofRatio := ofRatio_one negative hn hlog hfull hlow
  simp only [Nat.pow_eq] at hofRatio
  have hkept : rounded n = roundRatio (n * 2 ^ (52 - n.log2)) (2 ^ (n.log2 - 52)) * 2 ^ (n.log2 - 52) /
      2 ^ (52 - n.log2) := by
    unfold rounded
    by_cases hlong : 52 ≤ n.log2
    · rw [Nat.sub_eq_zero_of_le hlong, Nat.pow_zero, Nat.mul_one, Nat.div_one]
    · rw [Nat.sub_eq_zero_of_le (m := 52) (by omega), Nat.pow_zero, roundRatio_one, roundRatio_one, Nat.mul_one,
        Nat.mul_one, Nat.mul_div_cancel _ (Nat.two_pow_pos _)]
  have hexact : n.log2 < 52 → roundRatio (n * 2 ^ (52 - n.log2)) (2 ^ (n.log2 - 52)) < 2 ^ 53 := by
    intro hshort
    have := lt_two_pow_log2 n
    rw [Nat.sub_eq_zero_of_le (n := n.log2) (by omega), Nat.pow_zero] at this ⊢
    rw [roundRatio_one]
    omega
  rw [hofRatio, hkept]
  generalize roundRatio (n * 2 ^ (52 - n.log2)) (2 ^ (n.log2 - 52)) = r at hlow hhigh hexact
  -- A carry past the 53 digits leaves the next power of two.
  by_cases hcarry : r = 2 ^ 53
  · have hlong : 52 ≤ n.log2 := by omega
    have hbits : (n.log2 + 1022) * 2 ^ 52 + r = (n.log2 + 1024) * 2 ^ 52 + 0 := by omega
    rw [hbits]
    refine toInt_truncateToInt64 (ofFloat_ofBits negative (by omega) (by omega) (by decide)) ?_
    rw [if_pos (by omega), Nat.sub_eq_zero_of_le hlong, Nat.pow_zero, Nat.div_one, hcarry,
      show (((n.log2 + 1024 : Nat) : Int) - 1075).toNat = n.log2 - 52 + 1 by omega, Nat.pow_succ]
    omega
  · have hbits : (n.log2 + 1022) * 2 ^ 52 + r = (n.log2 + 1023) * 2 ^ 52 + (r - 2 ^ 52) := by omega
    rw [hbits]
    refine toInt_truncateToInt64 (ofFloat_ofBits negative (by omega) (by omega) (by omega)) ?_
    rw [Nat.sub_add_cancel hlow]
    split
    · rw [Nat.sub_eq_zero_of_le (n := 52) (by omega), Nat.pow_zero, Nat.div_one,
        show (((n.log2 + 1023 : Nat) : Int) - 1075).toNat = n.log2 - 52 by omega]
    · rw [Nat.sub_eq_zero_of_le (m := 52) (by omega), Nat.pow_zero, Nat.mul_one,
        show (-(((n.log2 + 1023 : Nat) : Int) - 1075)).toNat = 52 - n.log2 by omega]

/-- An integer of the range as a floating-point number and back. -/
theorem toInt_truncateToInt64_ofInt {i : Int} (hi : i.natAbs ≤ 2 ^ 63) :
    (truncateToInt64 (ofInt i)).toInt =
      max (-2 ^ 63) (min (if i < 0 then -(rounded i.natAbs : Int) else rounded i.natAbs) (2 ^ 63 - 1)) := by
  by_cases hzero : i = 0
  · subst hzero
    decide +kernel
  · have hlog : i.natAbs.log2 ≤ 63 := by
      rw [← Nat.lt_succ_iff, Nat.log2_lt (by omega)]
      omega
    have := toInt_truncateToInt64_ofRatio (decide (i < 0)) (n := i.natAbs) (by omega) hlog
    simpa only [ofInt, decide_eq_true_eq] using this

end ScriptHost.Numeral
