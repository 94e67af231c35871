import ScriptHost.Proofs.Lexing.Literal
/-! Tokens read from the front of a longer text. -/
namespace ScriptHost.Lua
open Text (Bytes)

/-- Whether a token is part of a text, and not its end or a place where none could be read. -/
def Token.isProper : Token → Bool
  | .endOfText | .invalid _ => false
  | _ => true

namespace Lexer

variable {tail : List UInt8}

/-- A step with more text behind it. -/
def Step.before (step : Step) (tail : List UInt8) : Step := { step with rest := step.rest ++ tail }

/-- A token is read in the same way from a text with more behind it. -/
def ReadsOn (tail : List UInt8) (b : UInt8) : Prop :=
  ∀ {fuel line : Nat} {rest : List UInt8} {step : Step}, rest.length < fuel →
    readToken fuel line (b :: rest) = .ok step → ∀ fuel', (rest ++ tail).length < fuel' →
      step.rest.length ≤ rest.length ∧ step.token.isProper ∧
        readToken fuel' line (b :: (rest ++ tail)) = .ok (step.before tail)

theorem readsOn_letter (ht : Apart tail) {b : UInt8} (hb : isLetter b) : ReadsOn tail b := by
  intro fuel line rest step _ h fuel' _
  have hname : isNameByte b := by simp [isNameByte, hb]
  simp only [readToken] at h ⊢
  rw [if_pos hb] at h ⊢
  cases h
  have hlength := (rest.dropWhile_suffix isNameByte).length_le
  rw [← List.cons_append, ht.takeWhile rfl, ht.dropWhile rfl]
  refine ⟨?_, ?_, rfl⟩
  · simpa [List.dropWhile_cons, hname] using hlength
  · dsimp only
    split <;> rfl

theorem not_isLetter_of_isDigit {b : UInt8} (hb : isDigit b) : ¬ isLetter b := by
  simp only [isDigit, isLetter, Bool.and_eq_true, decide_eq_true_eq, Bool.or_eq_true, beq_iff_eq, UInt8.le_iff_toNat_le,
    ← UInt8.toNat_inj] at hb ⊢
  simp at hb ⊢
  omega

theorem readsOn_digit (ht : Apart tail) {b : UInt8} (hb : isDigit b) : ReadsOn tail b := by
  intro fuel line rest step hfuel h fuel' hfuel'
  simp only [readToken] at h ⊢
  rw [if_neg (not_isLetter_of_isDigit hb), if_pos hb] at h ⊢
  cases hread : readNumber fuel line [] (b :: rest) with
  | error fault =>
    rw [hread] at h
    cases h
  | ok read =>
    obtain ⟨n, out, after⟩ := read
    rw [hread] at h
    cases h
    have hlength := length_numeral_digit hb (Nat.succ_le_of_lt hfuel) []
    rw [← rest_readNumber hread] at hlength
    rw [← List.cons_append, readNumber_append ht (Nat.succ_le_of_lt hfuel) (Nat.succ_le_of_lt hfuel') hread]
    exact ⟨hlength, rfl, rfl⟩

theorem readsOn_quote (ht : Apart tail) {b : UInt8} (hb : b = 34 ∨ b = 39) : ReadsOn tail b := by
  intro fuel line rest step hfuel h fuel' hfuel'
  have hslash : ¬ 92 == b := by obtain rfl | rfl := hb <;> decide
  have hletter : ¬ isLetter b := by obtain rfl | rfl := hb <;> decide
  have hdigit : ¬ isDigit b := by obtain rfl | rfl := hb <;> decide
  simp only [readToken] at h ⊢
  rw [if_neg hletter, if_neg hdigit, if_pos (by simpa using hb)] at h ⊢
  cases hread : readString b fuel line [b] rest with
  | error fault =>
    rw [hread] at h
    cases h
  | ok read =>
    obtain ⟨out, last, after⟩ := read
    rw [hread] at h
    cases h
    obtain ⟨hlength, hread⟩ := readString_append ht hslash (by omega) hread fuel' (by omega)
    rw [hread]
    exact ⟨hlength, rfl, rfl⟩

theorem readsOn_bracket (ht : Apart tail) : ReadsOn tail 91 := by
  intro fuel line rest step hfuel h fuel' hfuel'
  have hsimple : ¬ isLetter 91 ∧ ¬ isDigit 91 ∧ ¬ ((91 : UInt8) == 34 || (91 : UInt8) == 39) := by decide
  simp only [readToken] at h ⊢
  rw [if_neg hsimple.1, if_neg hsimple.2.1, if_neg hsimple.2.2, if_pos (by decide)] at h ⊢
  rw [ht.longLevel?, ht.takeWhile rfl]
  cases hlevel : longLevel? rest with
  | some long =>
    obtain ⟨level, body⟩ := long
    have := length_longLevel? hlevel
    rw [hlevel] at h
    dsimp only [Option.map_some] at h ⊢
    cases hread : readLongBracket fuel level line body with
    | error last =>
      rw [hread] at h
      cases h
    | ok read =>
      obtain ⟨out, last, after⟩ := read
      rw [List.length_append] at hfuel'
      obtain ⟨hlength, hread'⟩ := readLongBracket_append ht hread fuel' (by simp; omega)
      rw [hread] at h
      cases h
      rw [hread']
      exact ⟨by dsimp only; omega, rfl, rfl⟩
  | none =>
    rw [hlevel] at h
    dsimp only [Option.map_none] at h ⊢
    split at h
    · next hempty =>
      cases h
      rw [if_pos hempty]
      exact ⟨Nat.le_refl _, rfl, rfl⟩
    · cases h

theorem readToken_dots (fuel line : Nat) (rest : List UInt8) :
    readToken fuel line (46 :: 46 :: 46 :: rest) = .ok ⟨.dots, [], line, rest⟩ := by
  simp +decide [readToken]

theorem readToken_concat {rest : List UInt8} (h : rest.head? ≠ some 46) (fuel line : Nat) :
    readToken fuel line (46 :: 46 :: rest) = .ok ⟨.concat, [], line, rest⟩ := by
  cases rest with
  | nil => simp +decide [readToken]
  | cons b rest =>
    have hb : b ≠ 46 := by simpa using h
    simp +decide [readToken, hb]

theorem readToken_fraction {d : UInt8} (hd : isDigit d) (fuel line : Nat) (rest : List UInt8) :
    readToken fuel line (46 :: d :: rest) = do
      let (n, spelling, rest) ← readNumber fuel line [46] (d :: rest)
      return ⟨.number n, spelling.reverse, line, rest⟩ := by
  have hpoint : d ≠ 46 := by
    rintro rfl
    exact absurd hd (by decide)
  simp +decide [readToken, hpoint, hd]

theorem readToken_point {rest : List UInt8} (h : ∀ d ∈ rest.head?, d ≠ 46 ∧ ¬ isDigit d) (fuel line : Nat) :
    readToken fuel line (46 :: rest) = .ok ⟨.char 46, [], line, rest⟩ := by
  cases rest with
  | nil => simp +decide [readToken]
  | cons d rest =>
    obtain ⟨hpoint, hdigit⟩ := h d rfl
    simp +decide [readToken, hpoint, hdigit]

theorem Apart.head?_append (ht : Apart tail) {p : UInt8 → Prop} (hp : p 32) {cs : List UInt8}
    (h : ∀ b ∈ cs.head?, p b) : ∀ b ∈ (cs ++ tail).head?, p b := by
  cases cs with
  | nil =>
    intro b hb
    rw [ht b hb]
    exact hp
  | cons b cs => exact h

/-- What begins with a point is an operator or a number. -/
theorem readsOn_point (ht : Apart tail) : ReadsOn tail 46 := by
  intro fuel line rest step hfuel h fuel' hfuel'
  by_cases hpoint : ∀ d ∈ rest.head?, d ≠ 46 ∧ ¬ isDigit d
  · rw [readToken_point hpoint] at h
    rw [readToken_point (ht.head?_append (by decide) hpoint)]
    cases h
    exact ⟨Nat.le_refl _, rfl, rfl⟩
  obtain ⟨d, after, rfl⟩ : ∃ d after, rest = d :: after := by
    cases rest with
    | nil => simp at hpoint
    | cons d after => exact ⟨d, after, rfl⟩
  by_cases hdigit : isDigit d
  · rw [readToken_fraction hdigit] at h
    rw [List.cons_append, readToken_fraction hdigit]
    cases hread : readNumber fuel line [46] (d :: after) with
    | error fault =>
      rw [hread] at h
      cases h
    | ok read =>
      obtain ⟨n, out, behind⟩ := read
      rw [hread] at h
      cases h
      rw [← List.cons_append, readNumber_append ht (Nat.le_of_lt hfuel) (Nat.le_of_lt hfuel') hread,
        rest_readNumber hread]
      exact ⟨length_numeral .., rfl, rfl⟩
  obtain rfl : d = 46 := by simpa [hdigit] using hpoint
  by_cases hdots : after.head? = some 46
  · obtain ⟨behind, rfl⟩ := List.head?_eq_some_iff.mp hdots
    rw [readToken_dots] at h
    cases h
    exact ⟨by simp; omega, rfl, readToken_dots ..⟩
  · rw [readToken_concat hdots] at h
    cases h
    have hhead : ∀ b ∈ after.head?, b ≠ 46 := by
      rintro b hb rfl
      exact hdots hb
    refine ⟨by simp, rfl, readToken_concat (fun heq => ?_) ..⟩
    exact ht.head?_append (by decide) hhead 46 heq rfl

theorem isProper_of_eq_or {token first long : Token} (htoken : token = first ∨ token = long) (hfirst : first.isProper)
    (hlong : long.isProper) : token.isProper := by
  obtain rfl | rfl := htoken <;> assumption

theorem Apart.head?_ne (ht : Apart tail) {b : UInt8} (hb : 32 ≠ b) : tail.head? ≠ some b :=
  fun hhead => hb (ht b hhead).symm

/-- Operators of one byte, or of two if a certain one follows. -/
theorem readsOn_pair (ht : Apart tail) {b : UInt8} (hb : b = 61 ∨ b = 126 ∨ b = 58 ∨ b = 47) : ReadsOn tail b := by
  intro fuel line rest step _ h fuel' _
  simp only [readToken] at h ⊢
  obtain rfl | rfl | rfl | rfl := hb
  all_goals
    cases h
    exact ⟨length_oneOrTwo_le .., isProper_of_eq_or (token_oneOrTwo ..) rfl rfl,
      congrArg Except.ok (oneOrTwo_append (ht.head?_ne (by decide)) ..)⟩

/-- What begins with another second byte still does so with more behind it. -/
theorem Apart.append_ne_cons (ht : Apart tail) {b : UInt8} (hb : 32 ≠ b) {rest : List UInt8}
    (hrest : ∀ after, rest ≠ b :: after) (after : List UInt8) : rest ++ tail ≠ b :: after := by
  cases rest with
  | nil =>
    rintro rfl
    exact ht.head?_ne hb rfl
  | cons d rest =>
    intro heq
    exact hrest rest (by rw [(List.cons.inj heq).1])

/-- Comparisons and shifts. -/
theorem readsOn_order (ht : Apart tail) {b : UInt8} (hb : b = 60 ∨ b = 62) : ReadsOn tail b := by
  intro fuel line rest step _ h fuel' _
  obtain rfl | rfl := hb
  all_goals
    simp +decide only [readToken, if_true, if_false] at h ⊢
    split at h
    · cases h
      exact ⟨by simp, rfl, rfl⟩
    · next hrest =>
      cases h
      refine ⟨length_oneOrTwo_le .., isProper_of_eq_or (token_oneOrTwo ..) rfl rfl, ?_⟩
      split
      · next after heq => exact absurd heq (ht.append_ne_cons (by decide) hrest after)
      · exact congrArg Except.ok (oneOrTwo_append (ht.head?_ne (by decide)) ..)

/-- Any other byte is an operator of its own. -/
theorem readsOn_single {b : UInt8} (hletter : ¬ isLetter b) (hdigit : ¬ isDigit b)
    (hb : b ∉ [34, 39, 91, 61, 126, 58, 47, 60, 62, 46]) (tail : List UInt8) : ReadsOn tail b := by
  intro fuel line rest step _ h fuel' _
  simp only [List.mem_cons, List.not_mem_nil, or_false, not_or] at hb
  have hread (fuel : Nat) (rest : List UInt8) : readToken fuel line (b :: rest) = .ok ⟨.char b, [], line, rest⟩ := by
    simp [readToken, hletter, hdigit, hb]
  rw [hread] at h ⊢
  cases h
  exact ⟨Nat.le_refl _, rfl, rfl⟩

theorem readToken_append (ht : Apart tail) (b : UInt8) : ReadsOn tail b := by
  by_cases hletter : isLetter b
  · exact readsOn_letter ht hletter
  by_cases hdigit : isDigit b
  · exact readsOn_digit ht hdigit
  by_cases hquote : b = 34 ∨ b = 39
  · exact readsOn_quote ht hquote
  by_cases hbracket : b = 91
  · exact hbracket ▸ readsOn_bracket ht
  by_cases hpoint : b = 46
  · exact hpoint ▸ readsOn_point ht
  by_cases hpair : b = 61 ∨ b = 126 ∨ b = 58 ∨ b = 47
  · exact readsOn_pair ht hpair
  by_cases horder : b = 60 ∨ b = 62
  · exact readsOn_order ht horder
  · exact readsOn_single hletter hdigit (by simp_all) tail

end Lexer
end ScriptHost.Lua
