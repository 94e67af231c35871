import ScriptHost.Proofs.Identifier
/-! Integers by their decimal digits. What an integer is written as reads back as the same integer, over the whole range
and the least one among them, whose digits alone would not fit. -/
namespace ScriptHost.Lua.Number

section Digits
variable {digits : List UInt8}

theorem isDigit_iff {b : UInt8} : isDigit b ↔ 48 ≤ b.toNat ∧ b.toNat ≤ 57 := by
  simp only [isDigit, Bool.and_eq_true, decide_eq_true_eq, UInt8.le_iff_toNat_le, UInt8.reduceToNat]

/-- Nothing among digits looks like the mark of another base. -/
theorem splitHexMark_digits (hdigits : ∀ b ∈ digits, isDigit b) : splitHexMark digits = none := by
  unfold splitHexMark
  split
  · have hx := hdigits 120 (by simp)
    cases hx
  · have hx := hdigits 88 (by simp)
    cases hx
  · rfl

theorem splitSign_digits (hdigits : ∀ b ∈ digits, isDigit b) : splitSign digits = (false, digits) := by
  unfold splitSign
  split
  · have hminus := hdigits 45 List.mem_cons_self
    cases hminus
  · have hplus := hdigits 43 List.mem_cons_self
    cases hplus
  · rfl

/-- A text without blanks is left as it is. -/
theorem trim_eq_self {cs : List UInt8} (hcs : ∀ b ∈ cs, isSpace b = false) : trim cs = cs := by
  have hkept {ds : List UInt8} (hds : ∀ b ∈ ds, isSpace b = false) : ds.dropWhile isSpace = ds := by
    cases ds with
    | nil => rfl
    | cons b rest => exact List.dropWhile_cons_of_neg (by simp [hds b List.mem_cons_self])
  have hreverse : ∀ b ∈ cs.reverse, isSpace b = false := fun b hb => hcs b (List.mem_reverse.mp hb)
  rw [trim, hkept hcs, hkept hreverse, List.reverse_reverse]

theorem isSpace_digit {b : UInt8} (hb : isDigit b) : isSpace b = false := by
  have hrange := isDigit_iff.mp hb
  simp only [isSpace, Bool.or_eq_false_iff, Bool.and_eq_false_iff, decide_eq_false_iff_not, beq_eq_false_iff_ne, ne_eq,
    UInt8.le_iff_toNat_le, ← UInt8.toNat_inj, UInt8.reduceToNat]
  omega

/-- Digits with or without a sign are an integer if it is in the range. -/
theorem readInt?_digits (hdigits : ∀ b ∈ digits, isDigit b) (hne : digits ≠ []) (negative : Bool) {i : Int}
    (hi : (if negative then -(spell 10 digits : Int) else spell 10 digits) = i) (hrange : Numeral.inRange64 i) :
    readInt? (if negative then 45 :: digits else digits) = some (Int64.ofInt i) := by
  have hsign : splitSign (if negative then 45 :: digits else digits) = (negative, digits) := by
    cases negative with
    | true => rfl
    | false => exact splitSign_digits hdigits
  have hdecimal : (digits.isEmpty || !digits.all isDigit) = false := by
    simp only [Bool.or_eq_false_iff, List.isEmpty_eq_false_iff, Bool.not_eq_false', List.all_eq_true]
    exact ⟨hne, hdigits⟩
  unfold readInt?
  simp only [hsign, splitHexMark_digits hdigits, hdecimal, hi, hrange, if_true, Bool.false_eq_true, if_false]

end Digits

/-- The bytes of the decimal digits of a natural number. -/
def digitBytes (n : Nat) : List UInt8 := (Nat.toDigits 10 n).map Char.toUInt8

theorem toNat_toUInt8_digit {c : Char} (hc : c.isDigit) :
    c.toUInt8.toNat = c.toNat ∧ 48 ≤ c.toNat ∧ c.toNat ≤ 57 := by
  simp only [Char.isDigit, Bool.and_eq_true, decide_eq_true_eq, ge_iff_le, UInt32.le_iff_toNat_le] at hc
  have hlow : 48 ≤ c.toNat := hc.1
  have hhigh : c.toNat ≤ 57 := hc.2
  exact ⟨(UInt32.toNat_toUInt8 _).trans (Nat.mod_eq_of_lt (Nat.lt_of_le_of_lt hhigh (by decide))), hlow, hhigh⟩

theorem isDigit_of_mem_digitBytes (n : Nat) : ∀ b ∈ digitBytes n, isDigit b := by
  intro b hb
  obtain ⟨c, hc, rfl⟩ := List.mem_map.mp hb
  obtain ⟨hbyte, hbounds⟩ := toNat_toUInt8_digit (Nat.isDigit_of_mem_toDigits (by decide) (by decide) hc)
  rw [isDigit_iff, hbyte]
  exact hbounds

theorem hexDigit?_digit {c : Char} (hc : c.isDigit) : hexDigit? c.toUInt8 = some (c.toNat - 48) := by
  obtain ⟨hbyte, hbounds⟩ := toNat_toUInt8_digit hc
  have hdigit : isDigit c.toUInt8 := by
    rw [isDigit_iff, hbyte]
    exact hbounds
  rw [hexDigit?, if_pos hdigit, hbyte]

/-- The digits of a number spell it. -/
theorem spell_digitBytes (n : Nat) : spell 10 (digitBytes n) = n := by
  have hfold {cs : List Char} (hcs : ∀ c ∈ cs, c.isDigit) (start : Nat) :
      (cs.map Char.toUInt8).foldl (fun n b => n * 10 + (hexDigit? b).getD 0) start =
        Nat.ofDigitChars 10 cs start := by
    induction cs generalizing start with
    | nil => rfl
    | cons c rest ih =>
      obtain ⟨hc, hrest⟩ := List.forall_mem_cons.mp hcs
      rw [List.map_cons, List.foldl_cons, hexDigit?_digit hc, ih hrest, Nat.mul_comm]
      rfl
  have hdigits : ∀ c ∈ Nat.toDigits 10 n, c.isDigit := fun c hc =>
    Nat.isDigit_of_mem_toDigits (by decide) (by decide) hc
  exact (hfold hdigits 0).trans (Nat.ofDigitChars_toDigits (by decide) (by decide))

theorem toList_toUTF8_repr (n : Nat) : n.repr.toUTF8.data.toList = digitBytes n := by
  have hname : ∀ c ∈ n.repr.toList, isNameChar c := by
    intro c hc
    rw [Nat.toList_repr] at hc
    rw [isNameChar, Nat.isDigit_of_mem_toDigits (by decide) (by decide) hc, Bool.or_true]
  rw [bytes_of_nameChars hname, Nat.toList_repr]
  rfl

/-- The bytes of an integer are a sign, if it is negative, and the digits of its magnitude. -/
theorem toList_toUTF8_intText (v : Int64) :
    (intText v).toUTF8.data.toList =
      if v.toInt < 0 then 45 :: digitBytes v.toInt.natAbs else digitBytes v.toInt.natAbs := by
  have hrepr : intText v = v.toInt.repr := rfl
  rw [hrepr, Int.repr_eq_if]
  by_cases hnegative : v.toInt < 0
  · have hmagnitude : (-v.toInt).toNat = v.toInt.natAbs := by omega
    have happend (n : Nat) : ("-" ++ n.repr).toUTF8.data.toList = 45 :: n.repr.toUTF8.data.toList := by
      rw [String.toUTF8_eq_toByteArray, String.toByteArray_append, ByteArray.data_append, Array.toList_append]
      rfl
    rw [if_neg (by omega), if_pos hnegative, hmagnitude, happend, toList_toUTF8_repr]
  · have hmagnitude : v.toInt.toNat = v.toInt.natAbs := by omega
    rw [if_pos (by omega), if_neg hnegative, hmagnitude, toList_toUTF8_repr]

/-- Every integer is read back from its text. -/
theorem ofBytes?_intText (v : Int64) : ofBytes? (intText v).toUTF8 = some (.int v) := by
  have hdigits := isDigit_of_mem_digitBytes v.toInt.natAbs
  have hne : digitBytes v.toInt.natAbs ≠ [] := by
    rw [digitBytes, ne_eq, List.map_eq_nil_iff]
    exact Nat.toDigits_ne_nil
  have hrange : Numeral.inRange64 v.toInt := Numeral.inRange64_iff.mpr ⟨v.le_toInt, v.toInt_lt⟩
  have hvalue : (if decide (v.toInt < 0) then -(spell 10 (digitBytes v.toInt.natAbs) : Int)
      else spell 10 (digitBytes v.toInt.natAbs)) = v.toInt := by
    rw [spell_digitBytes]
    by_cases hnegative : v.toInt < 0
    · rw [decide_eq_true hnegative, if_pos rfl]
      omega
    · rw [decide_eq_false hnegative, if_neg Bool.false_ne_true]
      omega
  have hread := readInt?_digits hdigits hne (decide (v.toInt < 0)) hvalue hrange
  have htrim : trim (if v.toInt < 0 then 45 :: digitBytes v.toInt.natAbs else digitBytes v.toInt.natAbs) =
      if v.toInt < 0 then 45 :: digitBytes v.toInt.natAbs else digitBytes v.toInt.natAbs := by
    apply trim_eq_self
    intro b hb
    split at hb
    · obtain rfl | hb := List.mem_cons.mp hb
      · rfl
      · exact isSpace_digit (hdigits b hb)
    · exact isSpace_digit (hdigits b hb)
  simp only [decide_eq_true_eq, Int64.ofInt_toInt] at hread
  rw [ofBytes?, toList_toUTF8_intText, read?, htrim]
  simp only [hread]

end ScriptHost.Lua.Number
