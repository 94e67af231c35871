import ScriptHost.Text.Utf8
/-! Bytes that are the UTF-8 form of a text. The lossy decoder gives that text back. -/
namespace ScriptHost.Text
variable {b₀ b₁ b₂ b₃ : UInt8}

private theorem isContinuation_iff : isContinuation b₁ ↔ 0x80 ≤ b₁.toNat ∧ b₁.toNat ≤ 0xBF := by
  simp [isContinuation, UInt8.le_iff_toNat_le]

private theorem allowsSecond_iff :
    allowsSecond b₀ b₁ ↔ (0x80 ≤ b₁.toNat ∧ b₁.toNat ≤ 0xBF) ∧
      (b₀.toNat = 0xE0 → 0xA0 ≤ b₁.toNat) ∧ (b₀.toNat = 0xED → b₁.toNat ≤ 0x9F) ∧
      (b₀.toNat = 0xF0 → 0x90 ≤ b₁.toNat) ∧ (b₀.toNat = 0xF4 → b₁.toNat ≤ 0x8F) := by
  simp only [allowsSecond, isContinuation, beq_iff_eq, ← UInt8.toNat_inj, UInt8.le_iff_toNat_le,
    UInt8.reduceToNat]
  grind

section Sequences
variable (out : String) (rest : List UInt8)

theorem decodeOnto_one (h₀ : b₀.toNat < 0x80) :
    decodeOnto out (b₀ :: rest) = decodeOnto (out.push (Char.ofNat b₀.toNat)) rest := by
  have hone : b₀ < 0x80 := UInt8.lt_iff_toNat_lt.mpr h₀
  rw [decodeOnto.eq_def]
  simp only [hone, if_true]

theorem decodeOnto_two (h₀ : 0xC2 ≤ b₀.toNat ∧ b₀.toNat ≤ 0xDF) (h₁ : isContinuation b₁) :
    decodeOnto out (b₀ :: b₁ :: rest) =
      decodeOnto (out.push (Char.ofNat (b₀.toNat % 32 * 64 + payload b₁))) rest := by
  have hone : ¬ b₀ < 0x80 := by simp [UInt8.lt_iff_toNat_lt]; omega
  have htwo : 0xC2 ≤ b₀ && b₀ ≤ 0xDF := by simp [UInt8.le_iff_toNat_le, h₀]
  rw [decodeOnto.eq_def]
  simp only [hone, htwo, h₁, if_true, if_false]

theorem decodeOnto_three (h₀ : 0xE0 ≤ b₀.toNat ∧ b₀.toNat ≤ 0xEF) (h₁ : allowsSecond b₀ b₁)
    (h₂ : isContinuation b₂) :
    decodeOnto out (b₀ :: b₁ :: b₂ :: rest) =
      decodeOnto (out.push (Char.ofNat (b₀.toNat % 16 * 4096 + payload b₁ * 64 + payload b₂))) rest := by
  have hone : ¬ b₀ < 0x80 := by simp [UInt8.lt_iff_toNat_lt]; omega
  have htwo : ¬ (0xC2 ≤ b₀ && b₀ ≤ 0xDF) := by simp [UInt8.le_iff_toNat_le]; omega
  have hthree : 0xE0 ≤ b₀ && b₀ ≤ 0xEF := by simp [UInt8.le_iff_toNat_le, h₀]
  rw [decodeOnto.eq_def]
  simp only [hone, htwo, hthree, h₁, h₂, if_true, if_false, Bool.false_eq_true]

theorem decodeOnto_four (h₀ : 0xF0 ≤ b₀.toNat ∧ b₀.toNat ≤ 0xF4) (h₁ : allowsSecond b₀ b₁)
    (h₂ : isContinuation b₂) (h₃ : isContinuation b₃) :
    decodeOnto out (b₀ :: b₁ :: b₂ :: b₃ :: rest) =
      decodeOnto (out.push (Char.ofNat
        (b₀.toNat % 8 * 262144 + payload b₁ * 4096 + payload b₂ * 64 + payload b₃))) rest := by
  have hone : ¬ b₀ < 0x80 := by simp [UInt8.lt_iff_toNat_lt]; omega
  have htwo : ¬ (0xC2 ≤ b₀ && b₀ ≤ 0xDF) := by simp [UInt8.le_iff_toNat_le]; omega
  have hthree : ¬ (0xE0 ≤ b₀ && b₀ ≤ 0xEF) := by simp [UInt8.le_iff_toNat_le]; omega
  have hfour : 0xF0 ≤ b₀ && b₀ ≤ 0xF4 := by simp [UInt8.le_iff_toNat_le, h₀]
  rw [decodeOnto.eq_def]
  simp only [hone, htwo, hthree, hfour, h₁, h₂, h₃, if_true, if_false, Bool.false_eq_true]

/-- The bytes of a character are decoded to the character. -/
theorem decodeOnto_utf8EncodeChar (c : Char) :
    decodeOnto out (String.utf8EncodeChar c ++ rest) = decodeOnto (out.push c) rest := by
  have hchar : Char.ofNat c.val.toNat = c := Char.ofNat_toNat c
  have hvalid : c.val.toNat < 0xD800 ∨ 0xDFFF < c.val.toNat ∧ c.val.toNat < 0x110000 := c.valid
  have hbyte {k : Nat} (hk : k < 256) : (UInt8.ofNat k).toNat = k := UInt8.toNat_ofNat_of_lt' hk
  have htail (k : Nat) : (UInt8.ofNat (k % 64 + 128)).toNat = k % 64 + 128 := hbyte (by omega)
  have hnext (k : Nat) : isContinuation (UInt8.ofNat (k % 64 + 128)) := by
    rw [isContinuation_iff, htail]
    omega
  have hpayload (k : Nat) : payload (UInt8.ofNat (k % 64 + 128)) = k % 64 := by
    rw [payload, htail]
    omega
  unfold String.utf8EncodeChar
  dsimp only
  generalize c.val.toNat = n at hchar hvalid
  split
  · next h =>
    have hlead := hbyte (k := n) (by omega)
    rw [List.singleton_append, decodeOnto_one _ _ (by omega), hlead, hchar]
  split
  · next h =>
    have hlead := hbyte (k := n / 64 % 32 + 192) (by omega)
    have hn : (n / 64 % 32 + 192) % 32 * 64 + n % 64 = n := by omega
    rw [List.cons_append, List.singleton_append, decodeOnto_two _ _ (by omega) (hnext n), hpayload, hlead, hn,
      hchar]
  split
  · next h =>
    have hlead := hbyte (k := n / 4096 % 16 + 224) (by omega)
    have hn : (n / 4096 % 16 + 224) % 16 * 4096 + n / 64 % 64 * 64 + n % 64 = n := by omega
    have hsecond : allowsSecond (UInt8.ofNat (n / 4096 % 16 + 224)) (UInt8.ofNat (n / 64 % 64 + 128)) := by
      rw [allowsSecond_iff, hlead, htail]
      omega
    rw [List.cons_append, List.cons_append, List.singleton_append,
      decodeOnto_three _ _ (by omega) hsecond (hnext n), hpayload, hpayload, hlead, hn, hchar]
  · have hlead := hbyte (k := n / 262144 % 8 + 240) (by omega)
    have hn : (n / 262144 % 8 + 240) % 8 * 262144 + n / 4096 % 64 * 4096 + n / 64 % 64 * 64 + n % 64 = n := by
      omega
    have hsecond : allowsSecond (UInt8.ofNat (n / 262144 % 8 + 240)) (UInt8.ofNat (n / 4096 % 64 + 128)) := by
      rw [allowsSecond_iff, hlead, htail]
      omega
    rw [List.cons_append, List.cons_append, List.cons_append, List.singleton_append,
      decodeOnto_four _ _ (by omega) hsecond (hnext _) (hnext n), hpayload, hpayload, hpayload, hlead, hn, hchar]

theorem toList_decodeOnto (cs : List Char) :
    (decodeOnto out (cs.flatMap String.utf8EncodeChar)).toList = out.toList ++ cs := by
  induction cs generalizing out with
  | nil => simp [decodeOnto]
  | cons c cs ih =>
    rw [List.flatMap_cons, decodeOnto_utf8EncodeChar, ih, String.toList_push, List.append_assoc,
      List.singleton_append]

end Sequences

/-- A character has one byte below the continuation bytes, or its first byte is above them. -/
theorem utf8EncodeChar_lead (c : Char) :
    ∃ lead tail, String.utf8EncodeChar c = lead :: tail ∧ (lead.toNat < 0x80 ∧ tail = [] ∨ 0xC0 ≤ lead.toNat) := by
  have hbyte {k : Nat} (hk : k < 256) : (UInt8.ofNat k).toNat = k := UInt8.toNat_ofNat_of_lt' hk
  unfold String.utf8EncodeChar
  dsimp only
  split
  · next h =>
    refine ⟨_, _, rfl, .inl ⟨?_, rfl⟩⟩
    rw [hbyte (by omega)]
    omega
  split
  · refine ⟨_, _, rfl, .inr ?_⟩
    rw [hbyte (by omega)]
    omega
  split <;>
  · refine ⟨_, _, rfl, .inr ?_⟩
    rw [hbyte (by omega)]
    omega

/-- A character has one byte of its own value, or it and all of its bytes are above ASCII. -/
theorem utf8EncodeChar_cases (c : Char) :
    c.toNat < 0x80 ∧ String.utf8EncodeChar c = [UInt8.ofNat c.toNat] ∨
      0x80 ≤ c.toNat ∧ ∀ b ∈ String.utf8EncodeChar c, 0x80 ≤ b.toNat := by
  have hhigh {k : Nat} (hk : 0x80 ≤ k ∧ k < 256) : 0x80 ≤ (UInt8.ofNat k).toNat := by
    rw [UInt8.toNat_ofNat_of_lt' hk.2]
    exact hk.1
  change c.val.toNat < 0x80 ∧ _ = [UInt8.ofNat c.val.toNat] ∨ 0x80 ≤ c.val.toNat ∧ _
  unfold String.utf8EncodeChar
  dsimp only
  split
  · exact .inl ⟨by omega, rfl⟩
  refine .inr ⟨by omega, ?_⟩
  split
  · simp only [List.mem_cons, List.not_mem_nil, or_false, forall_eq_or_imp, forall_eq]
    exact ⟨hhigh (by omega), hhigh (by omega)⟩
  split
  · simp only [List.mem_cons, List.not_mem_nil, or_false, forall_eq_or_imp, forall_eq]
    exact ⟨hhigh (by omega), hhigh (by omega), hhigh (by omega)⟩
  · simp only [List.mem_cons, List.not_mem_nil, or_false, forall_eq_or_imp, forall_eq]
    exact ⟨hhigh (by omega), hhigh (by omega), hhigh (by omega), hhigh (by omega)⟩

/-- What follows bytes of ASCII in the bytes of characters are the bytes of characters again. -/
theorem flatMap_utf8EncodeChar_eq_append {cs : List Char} {ascii rest : List UInt8}
    (h : cs.flatMap String.utf8EncodeChar = ascii ++ rest) (ha : ∀ b ∈ ascii, b.toNat < 0x80) :
    ∃ cs' : List Char, rest = cs'.flatMap String.utf8EncodeChar := by
  induction ascii generalizing cs with
  | nil => exact ⟨cs, h.symm⟩
  | cons b ascii ih =>
    obtain ⟨hb, hascii⟩ := List.forall_mem_cons.mp ha
    cases cs with
    | nil => cases h
    | cons c cs =>
      obtain ⟨lead, tail, hc, hlead⟩ := utf8EncodeChar_lead c
      rw [List.flatMap_cons, hc, List.cons_append, List.cons_append] at h
      obtain ⟨rfl, hrest⟩ := List.cons.inj h
      obtain ⟨-, rfl⟩ | habove := hlead
      · exact ih hrest hascii
      · omega

/-- No text has a continuation byte after bytes of ASCII. -/
theorem not_isContinuation_after_ascii {s : String} {ascii rest : List UInt8} {b : UInt8}
    (h : s.toUTF8.data.toList = ascii ++ b :: rest) (ha : ∀ b ∈ ascii, b.toNat < 0x80) : ¬ isContinuation b := by
  rw [String.toUTF8_eq_toByteArray, ← String.utf8Encode_toList, List.utf8Encode, List.toList_data_toByteArray] at h
  obtain ⟨cs, hcs⟩ := flatMap_utf8EncodeChar_eq_append h ha
  cases cs with
  | nil => cases hcs
  | cons c cs =>
    obtain ⟨lead, tail, hc, hlead⟩ := utf8EncodeChar_lead c
    rw [List.flatMap_cons, hc, List.cons_append] at hcs
    obtain ⟨rfl, -⟩ := List.cons.inj hcs
    rw [isContinuation_iff]
    omega

theorem decodeLossy_toByteArray (cs : List Char) :
    decodeLossy (cs.flatMap String.utf8EncodeChar).toByteArray = String.ofList cs := by
  rw [decodeLossy, List.toList_data_toByteArray, ← String.toList_inj, toList_decodeOnto, String.toList_empty,
    List.nil_append, String.toList_ofList]

theorem toByteArray_eq (s : String) : s.toByteArray = (s.toList.flatMap String.utf8EncodeChar).toByteArray := by
  rw [← String.utf8Encode_toList, List.utf8Encode]

theorem decodeLossy_toUTF8 (s : String) : decodeLossy s.toUTF8 = s := by
  rw [String.toUTF8_eq_toByteArray, toByteArray_eq, decodeLossy_toByteArray, String.ofList_toList]

/-- The bytes of characters. -/
def bytes (cs : List Char) : List UInt8 := cs.flatMap String.utf8EncodeChar

theorem bytes_append (cs cs' : List Char) : bytes (cs ++ cs') = bytes cs ++ bytes cs' := List.flatMap_append

theorem bytes_cons (c : Char) (cs : List Char) : bytes (c :: cs) = String.utf8EncodeChar c ++ bytes cs :=
  List.flatMap_cons

theorem toList_toUTF8 (s : String) : s.toUTF8.data.toList = bytes s.toList := by
  rw [String.toUTF8_eq_toByteArray, toByteArray_eq, List.toList_data_toByteArray, bytes]

theorem utf8EncodeChar_ascii {c : Char} (hc : c.toNat < 0x80) :
    String.utf8EncodeChar c = [UInt8.ofNat c.toNat] := by
  obtain ⟨-, hbytes⟩ | ⟨hhigh, -⟩ := utf8EncodeChar_cases c
  · exact hbytes
  · omega

/-- A character other than one of ASCII does not have that one's byte. -/
theorem ne_of_mem_utf8EncodeChar {c d : Char} (hd : d.toNat < 0x80) (hne : c ≠ d) :
    ∀ b ∈ String.utf8EncodeChar c, b ≠ UInt8.ofNat d.toNat := by
  have hbyte {c : Char} (hc : c.toNat < 0x80) : (UInt8.ofNat c.toNat).toNat = c.toNat :=
    UInt8.toNat_ofNat_of_lt' (Nat.lt_trans hc (by decide))
  rintro b hb rfl
  obtain ⟨hc, hbytes⟩ | ⟨-, hhigh⟩ := utf8EncodeChar_cases c
  · rw [hbytes, List.mem_singleton] at hb
    have hnat : d.toNat = c.toNat := by rw [← hbyte hd, hb, hbyte hc]
    exact hne (Char.toNat_inj.mp hnat.symm)
  · have habove := hhigh _ hb
    rw [hbyte hd] at habove
    omega

/-- A byte of ASCII in front is a character of its own. -/
theorem bytes_eq_cons_iff {c : Char} (hc : c.toNat < 0x80) {cs : List Char} {rest : List UInt8} :
    bytes cs = UInt8.ofNat c.toNat :: rest ↔ ∃ cs', cs = c :: cs' ∧ bytes cs' = rest := by
  cases cs with
  | nil => simp [bytes]
  | cons d cs =>
    by_cases hd : d = c
    · subst hd
      simp [bytes_cons, utf8EncodeChar_ascii hc]
    · obtain ⟨lead, tail, hbytes, -⟩ := utf8EncodeChar_lead d
      have hlead : lead ≠ UInt8.ofNat c.toNat := ne_of_mem_utf8EncodeChar hc hd lead (by simp [hbytes])
      simp [bytes_cons, hbytes, hlead, hd]

end ScriptHost.Text
