import ScriptHost.Proofs.Lexing.Spacing
/-! Numbers and strings read from the front of a longer text. -/
namespace ScriptHost.Lua.Lexer

variable {tail : List UInt8}

/-! Numbers. -/

/-- The letter that an exponent begins with. -/
def IsExponentLetter (letter : UInt8) : Prop := letter = 101 ∨ letter = 112

theorem takeNumeral_append (ht : Apart tail) {letter : UInt8} (hletter : IsExponentLetter letter) {fuel fuel' : Nat}
    {out cs : List UInt8} (hfuel : cs.length ≤ fuel) (hfuel' : (cs ++ tail).length ≤ fuel') :
    takeNumeral letter fuel' out (cs ++ tail) =
      ((takeNumeral letter fuel out cs).1, (takeNumeral letter fuel out cs).2 ++ tail) := by
  have hblank (fuel : Nat) (out : List UInt8) : takeNumeral letter fuel out tail = (out, tail) := by
    cases fuel with
    | zero => rfl
    | succ fuel =>
      cases tail with
      | nil => rfl
      | cons b tail =>
        obtain rfl : b = 32 := ht b rfl
        obtain rfl | rfl := hletter <;> rfl
  have hempty (fuel : Nat) (out : List UInt8) : takeNumeral letter fuel out [] = (out, []) := by
    cases fuel <;> rfl
  induction fuel generalizing fuel' out cs with
  | zero =>
    obtain rfl := List.length_eq_zero_iff.mp (Nat.le_zero.mp hfuel)
    rw [List.nil_append, hblank, hempty, List.nil_append]
  | succ fuel ih =>
    cases cs with
    | nil => rw [List.nil_append, hblank, hempty, List.nil_append]
    | cons b cs =>
      obtain ⟨fuel', rfl⟩ : ∃ n, fuel' = n + 1 := ⟨fuel' - 1, by simp at hfuel'; omega⟩
      have hnext {out : List UInt8} : takeNumeral letter fuel' out (cs ++ tail) =
          ((takeNumeral letter fuel out cs).1, (takeNumeral letter fuel out cs).2 ++ tail) :=
        ih (by simpa using hfuel) (by simpa using hfuel')
      simp only [List.cons_append, takeNumeral]
      by_cases hexponent : b == letter || b == letter - 32
      · rw [if_pos hexponent, if_pos hexponent]
        cases cs with
        | nil =>
          cases tail with
          | nil => rfl
          | cons c tail =>
            obtain rfl : c = 32 := ht c rfl
            exact hblank fuel' (b :: out)
        | cons c cs =>
          dsimp only [List.cons_append]
          split
          · simp only [List.length_cons, List.length_append, List.cons_append] at hfuel hfuel'
            exact ih (by omega) (by simp; omega)
          · exact hnext
      · rw [if_neg hexponent, if_neg hexponent, hnext]
        split <;> rfl

theorem length_takeNumeral (letter : UInt8) (fuel : Nat) (out cs : List UInt8) :
    (takeNumeral letter fuel out cs).2.length ≤ cs.length := by
  fun_induction takeNumeral letter fuel out cs <;> simp_all <;> omega

/-- A digit at the front is part of the number. -/
theorem length_takeNumeral_digit {letter b : UInt8} {fuel : Nat} {cs : List UInt8} (hb : isDigit b)
    (hfuel : (b :: cs).length ≤ fuel) (out : List UInt8) :
    (takeNumeral letter fuel out (b :: cs)).2.length ≤ cs.length := by
  obtain ⟨fuel, rfl⟩ : ∃ n, fuel = n + 1 := ⟨fuel - 1, by simp at hfuel; omega⟩
  have hhex : isHexDigit b := by simp [isHexDigit, hexDigit?, hb]
  simp only [takeNumeral]
  split
  · cases cs with
    | nil => simp
    | cons c cs =>
      dsimp only
      split
      · have := length_takeNumeral letter fuel (c :: b :: out) cs
        simp; omega
      · exact length_takeNumeral ..
  · rw [if_pos (by simp [hhex])]
    exact length_takeNumeral ..

/-- The base of a number is seen from its first bytes, and with it the letter of its exponent. -/
def takeBase (taken cs : List UInt8) : List UInt8 × List UInt8 × UInt8 :=
  match cs with
  | 48 :: x :: rest =>
    if x == 120 || x == 88 then (x :: 48 :: taken, rest, (112 : UInt8)) else (48 :: taken, x :: rest, 101)
  | _ => (taken, cs, 101)

/-- A letter right behind a number is taken with it. -/
def takeLetter (numeral : List UInt8 × List UInt8) : List UInt8 × List UInt8 :=
  match numeral.2 with
  | b :: rest => if isLetter b then (b :: numeral.1, rest) else numeral
  | [] => numeral

/-- The bytes taken for a number, in reverse, and what follows them. -/
def numeral (fuel : Nat) (taken cs : List UInt8) : List UInt8 × List UInt8 :=
  takeLetter (takeNumeral (takeBase taken cs).2.2 fuel (takeBase taken cs).1 (takeBase taken cs).2.1)

theorem readNumber_eq (fuel line : Nat) (taken cs : List UInt8) :
    readNumber fuel line taken cs =
      match Number.read? (numeral fuel taken cs).1.reverse with
      | some n => .ok (n, numeral fuel taken cs)
      | none => .error (faultNear line "malformed number" (numeral fuel taken cs).1) := rfl

theorem Apart.takeLetter (ht : Apart tail) (numeral : List UInt8 × List UInt8) :
    takeLetter (numeral.1, numeral.2 ++ tail) = ((takeLetter numeral).1, (takeLetter numeral).2 ++ tail) := by
  obtain ⟨out, rest⟩ := numeral
  cases rest with
  | nil =>
    cases tail with
    | nil => rfl
    | cons b tail =>
      obtain rfl : b = 32 := ht b rfl
      rfl
  | cons b rest =>
    dsimp only [Lexer.takeLetter, List.cons_append]
    split <;> rfl

theorem takeBase_cases (taken cs : List UInt8) :
    IsExponentLetter (takeBase taken cs).2.2 ∧ (takeBase taken cs).2.1.length ≤ cs.length := by
  unfold takeBase
  split
  · split
    · exact ⟨.inr rfl, by simp; omega⟩
    · exact ⟨.inl rfl, by simp⟩
  · exact ⟨.inl rfl, Nat.le_refl _⟩

theorem Apart.takeBase (ht : Apart tail) {cs : List UInt8} (hzero : cs ≠ [48]) (taken : List UInt8) :
    takeBase taken (cs ++ tail) =
      ((takeBase taken cs).1, (takeBase taken cs).2.1 ++ tail, (takeBase taken cs).2.2) := by
  rcases cs with _ | ⟨b, cs⟩
  · cases tail with
    | nil => rfl
    | cons b tail =>
      obtain rfl : b = 32 := ht b rfl
      rfl
  · by_cases hb : b = 48
    · subst hb
      cases cs with
      | nil => exact absurd rfl hzero
      | cons x rest =>
        change (if x == 120 || x == 88 then _ else _) = _
        by_cases hx : x == 120 || x == 88 <;> simp [Lexer.takeBase, hx]
    · simp [Lexer.takeBase, hb]

/-- A blank after a zero only stands where a letter for the base might. -/
theorem numeral_zero (ht : Apart tail) (fuel : Nat) (taken : List UInt8) :
    numeral (fuel + 1) taken (48 :: tail) = (48 :: taken, tail) := by
  have hdigit : isHexDigit 48 := by decide
  cases tail with
  | nil =>
    simp only [numeral, takeBase, takeNumeral]
    cases fuel <;> simp [takeNumeral, takeLetter, hdigit]
  | cons b tail =>
    obtain rfl : b = 32 := ht b rfl
    simp [numeral, takeBase, takeNumeral, takeLetter, isHexDigit, hexDigit?, isDigit, isLetter]

theorem numeral_append (ht : Apart tail) {fuel fuel' : Nat} {taken cs : List UInt8} (hfuel : cs.length ≤ fuel)
    (hfuel' : (cs ++ tail).length ≤ fuel') :
    numeral fuel' taken (cs ++ tail) = ((numeral fuel taken cs).1, (numeral fuel taken cs).2 ++ tail) := by
  rw [List.length_append] at hfuel'
  by_cases hzero : cs = [48]
  · subst hzero
    obtain ⟨fuel, rfl⟩ : ∃ n, fuel = n + 1 := ⟨fuel - 1, by simp at hfuel; omega⟩
    obtain ⟨fuel', rfl⟩ : ∃ n, fuel' = n + 1 := ⟨fuel' - 1, by simp at hfuel'; omega⟩
    rw [numeral_zero apart_nil, List.singleton_append, numeral_zero ht, List.nil_append]
  · obtain ⟨hletter, hlength⟩ := takeBase_cases taken cs
    unfold numeral
    rw [ht.takeBase hzero, ← ht.takeLetter,
      takeNumeral_append ht hletter (Nat.le_trans hlength hfuel) (by simp; omega)]

theorem length_takeLetter (numeral : List UInt8 × List UInt8) :
    (takeLetter numeral).2.length ≤ numeral.2.length := by
  obtain ⟨out, rest⟩ := numeral
  cases rest with
  | nil => exact Nat.le_refl _
  | cons b rest =>
    dsimp only [takeLetter]
    split <;> simp

theorem length_numeral (fuel : Nat) (taken cs : List UInt8) : (numeral fuel taken cs).2.length ≤ cs.length :=
  Nat.le_trans (length_takeLetter _) (Nat.le_trans (length_takeNumeral ..) (takeBase_cases taken cs).2)

theorem length_numeral_digit {b : UInt8} {fuel : Nat} {cs : List UInt8} (hb : isDigit b)
    (hfuel : (b :: cs).length ≤ fuel) (taken : List UInt8) :
    (numeral fuel taken (b :: cs)).2.length ≤ cs.length := by
  unfold numeral
  refine Nat.le_trans (length_takeLetter _) ?_
  unfold takeBase
  split
  · next x rest heq =>
    cases heq
    split
    · have := length_takeNumeral 112 fuel (x :: 48 :: taken) rest
      simp; omega
    · exact length_takeNumeral ..
  · exact length_takeNumeral_digit hb hfuel taken

theorem readNumber_append (ht : Apart tail) {fuel fuel' line : Nat} {taken cs out rest : List UInt8} {n : Number}
    (hfuel : cs.length ≤ fuel) (hfuel' : (cs ++ tail).length ≤ fuel')
    (h : readNumber fuel line taken cs = .ok (n, out, rest)) :
    readNumber fuel' line taken (cs ++ tail) = .ok (n, out, rest ++ tail) := by
  rw [readNumber_eq] at h ⊢
  rw [numeral_append ht hfuel hfuel']
  generalize numeral fuel taken cs = numeral at h
  dsimp only
  split at h
  · next hread =>
    cases h
    rfl
  · cases h

theorem rest_readNumber {fuel line : Nat} {taken cs out rest : List UInt8} {n : Number}
    (h : readNumber fuel line taken cs = .ok (n, out, rest)) : rest = (numeral fuel taken cs).2 := by
  rw [readNumber_eq] at h
  split at h
  · exact (congrArg Prod.snd (congrArg Prod.snd (Except.ok.inj h))).symm
  · cases h

/-! Strings. -/

theorem skipBlanks_append (ht : Apart tail) {fuel line line' : Nat} {cs rest : List UInt8}
    (hfuel : cs.length ≤ fuel) (h : skipBlanks fuel line cs = (line', rest)) (hrest : rest ≠ []) (fuel' : Nat)
    (hfuel' : (cs ++ tail).length ≤ fuel') :
    rest.length ≤ cs.length ∧ skipBlanks fuel' line (cs ++ tail) = (line', rest ++ tail) := by
  induction fuel generalizing fuel' line cs with
  | zero =>
    obtain rfl := List.length_eq_zero_iff.mp (Nat.le_zero.mp hfuel)
    cases h
    exact absurd rfl hrest
  | succ fuel ih =>
    cases cs with
    | nil =>
      cases h
      exact absurd rfl hrest
    | cons b cs =>
      obtain ⟨fuel', rfl⟩ : ∃ n, fuel' = n + 1 := ⟨fuel' - 1, by simp at hfuel'; omega⟩
      have hbreak := length_afterBreak_le b cs
      simp only [List.cons_append, List.length_cons, List.length_append] at hfuel hfuel' ⊢
      simp only [skipBlanks] at h ⊢
      by_cases hb : isBreak b
      · rw [if_pos hb] at h ⊢
        obtain ⟨hlength, hskip⟩ := ih (by omega) h fuel' (by simp; omega)
        exact ⟨by omega, by rw [ht.afterBreak, hskip]⟩
      · rw [if_neg hb] at h ⊢
        by_cases hspace : isSpace b
        · rw [if_pos hspace] at h ⊢
          obtain ⟨hlength, hskip⟩ := ih (by omega) h fuel' (by simp; omega)
          exact ⟨by omega, hskip⟩
        · rw [if_neg hspace] at h ⊢
          cases h
          exact ⟨by simp, rfl⟩

theorem readHexEscape_append {line : Nat} {shown cs rest : List UInt8} {c : UInt8}
    (h : readHexEscape line shown cs = .ok (c, rest)) (tail : List UInt8) :
    rest.length ≤ cs.length ∧ readHexEscape line shown (cs ++ tail) = .ok (c, rest ++ tail) := by
  rcases cs with _ | ⟨high, cs⟩
  · cases h
  cases hhigh : hexDigit? high with
  | none => simp [readHexEscape, hhigh, Bind.bind, Except.bind] at h
  | some d =>
    rcases cs with _ | ⟨low, cs⟩
    · simp [readHexEscape, hhigh, Bind.bind, Except.bind] at h
    cases hlow : hexDigit? low with
    | none => simp [readHexEscape, hhigh, hlow, Bind.bind, Except.bind] at h
    | some e =>
      simp only [readHexEscape, List.cons_append, hhigh, hlow, Bind.bind, Except.bind, Pure.pure, Except.pure] at h ⊢
      cases h
      exact ⟨by simp; omega, rfl⟩

theorem readBraced_append {fuel line n n' : Nat} {shown cs rest : List UInt8}
    (h : readBraced line fuel n shown cs = .ok (n', rest)) (tail : List UInt8) (fuel' : Nat)
    (hfuel' : (cs ++ tail).length ≤ fuel') :
    rest.length ≤ cs.length ∧ readBraced line fuel' n shown (cs ++ tail) = .ok (n', rest ++ tail) := by
  induction fuel generalizing fuel' n shown cs with
  | zero => cases h
  | succ fuel ih =>
    cases cs with
    | nil => cases h
    | cons b cs =>
      obtain ⟨fuel', rfl⟩ : ∃ n, fuel' = n + 1 := ⟨fuel' - 1, by simp at hfuel'; omega⟩
      simp only [List.cons_append, List.length_cons, readBraced] at h hfuel' ⊢
      cases hdigit : hexDigit? b with
      | some d =>
        simp only [hdigit] at h ⊢
        split at h
        · cases h
        · next hlarge =>
          rw [if_neg hlarge]
          obtain ⟨hlength, hread⟩ := ih h fuel' (by omega)
          exact ⟨by omega, hread⟩
      | none =>
        simp only [hdigit] at h ⊢
        split at h
        · next hclose =>
          rw [if_pos hclose]
          cases h
          exact ⟨by simp, rfl⟩
        · cases h

theorem readUnicodeEscape_append {fuel line n : Nat} {shown cs rest : List UInt8}
    (h : readUnicodeEscape fuel line shown cs = .ok (n, rest)) (tail : List UInt8) (fuel' : Nat)
    (hfuel' : (cs ++ tail).length ≤ fuel') :
    rest.length ≤ cs.length ∧ readUnicodeEscape fuel' line shown (cs ++ tail) = .ok (n, rest ++ tail) := by
  unfold readUnicodeEscape at h
  split at h
  · next after =>
    split at h
    · next b cs =>
      cases hdigit : hexDigit? b with
      | none => simp [hdigit] at h
      | some d =>
        simp only [hdigit] at h
        simp only [List.cons_append, List.length_cons, readUnicodeEscape, hdigit] at hfuel' ⊢
        obtain ⟨hlength, hread⟩ := readBraced_append h tail fuel' (by omega)
        exact ⟨by omega, hread⟩
    · cases h
  · cases h

theorem Apart.takeWhile_take (ht : Apart tail) {p : UInt8 → Bool} (hp : p 32 = false) (n : Nat) (cs : List UInt8) :
    ((cs ++ tail).take n).takeWhile p = (cs.take n).takeWhile p := by
  induction n generalizing cs with
  | zero => rfl
  | succ n ih =>
    cases cs with
    | nil =>
      cases tail with
      | nil => rfl
      | cons b tail => simp [ht b rfl, hp]
    | cons b cs => simp [List.takeWhile_cons, ih]

/-- An escape after its backslash and its first byte: the line, the bytes read so far and what follows. -/
def readEscape? (fuel line : Nat) (out : List UInt8) (e : UInt8) (cs : List UInt8) :
    Option (Nat × List UInt8 × List UInt8) :=
  match simpleEscape? e with
  | some c => some (line, c :: out, cs)
  | none =>
    if isBreak e then some (line + 1, 10 :: out, afterBreak e cs)
    else if e == 120 then
      match readHexEscape line (e :: 92 :: out) cs with
      | .ok (c, rest) => some (line, c :: out, rest)
      | .error _ => none
    else if e == 122 then some ((skipBlanks fuel line cs).1, out, (skipBlanks fuel line cs).2)
    else if e == 117 then
      match readUnicodeEscape fuel line (e :: 92 :: out) cs with
      | .ok (n, rest) => some (line, (encodeCodePoint n).reverse ++ out, rest)
      | .error _ => none
    else if isDigit e then
      let digits := (e :: cs).take 3 |>.takeWhile isDigit
      if 255 < Number.spell 10 digits then none
      else some (line, (Number.spell 10 digits).toUInt8 :: out, (e :: cs).drop digits.length)
    else none

theorem readString_escape_iff {quote : UInt8} (hquote : ¬ 92 == quote) {fuel line : Nat} {out : List UInt8} {e : UInt8}
    {cs : List UInt8} {result : List UInt8 × Nat × List UInt8} :
    readString quote (fuel + 1) line out (92 :: e :: cs) = .ok result ↔
      ∃ read, readEscape? fuel line out e cs = some read ∧
        readString quote fuel read.1 read.2.1 read.2.2 = .ok result := by
  have hbreak : ¬ isBreak 92 := by decide
  have hslash : (92 : UInt8) == 92 := by decide
  simp only [readString, readEscape?]
  rw [if_neg hquote, if_neg hbreak, if_pos hslash]
  cases simpleEscape? e with
  | some c => simp
  | none =>
    dsimp only
    split
    · simp
    split
    · cases readHexEscape line (e :: 92 :: out) cs <;> simp [Bind.bind, Except.bind]
    split
    · simp
    split
    · cases readUnicodeEscape fuel line (e :: 92 :: out) cs <;> simp [Bind.bind, Except.bind]
    split
    · split <;> simp
    · simp

theorem readEscape?_append (ht : Apart tail) {fuel line line' : Nat} {out out' cs rest : List UInt8} {e : UInt8}
    (hfuel : cs.length ≤ fuel) (h : readEscape? fuel line out e cs = some (line', out', rest)) (hrest : rest ≠ [])
    (fuel' : Nat) (hfuel' : (cs ++ tail).length ≤ fuel') :
    rest.length ≤ cs.length ∧
      readEscape? fuel' line out e (cs ++ tail) = some (line', out', rest ++ tail) := by
  have hbreak := length_afterBreak_le e cs
  unfold readEscape? at h ⊢
  cases hescape : simpleEscape? e with
  | some c =>
    rw [hescape] at h
    cases h
    exact ⟨Nat.le_refl _, rfl⟩
  | none =>
    rw [hescape] at h
    dsimp only at h ⊢
    by_cases hb : isBreak e
    · rw [if_pos hb] at h ⊢
      cases h
      exact ⟨hbreak, by rw [ht.afterBreak]⟩
    rw [if_neg hb] at h ⊢
    by_cases hhex : e == 120
    · rw [if_pos hhex] at h ⊢
      split at h
      · next c after hread =>
        cases h
        obtain ⟨hlength, hread⟩ := readHexEscape_append hread tail
        exact ⟨hlength, by rw [hread]⟩
      · cases h
    rw [if_neg hhex] at h ⊢
    by_cases hblanks : e == 122
    · rw [if_pos hblanks] at h ⊢
      cases h
      obtain ⟨hlength, hskip⟩ := skipBlanks_append ht hfuel rfl hrest fuel' hfuel'
      exact ⟨hlength, by rw [hskip]⟩
    rw [if_neg hblanks] at h ⊢
    by_cases hunicode : e == 117
    · rw [if_pos hunicode] at h ⊢
      split at h
      · next n after hread =>
        cases h
        obtain ⟨hlength, hread⟩ := readUnicodeEscape_append hread tail fuel' hfuel'
        exact ⟨hlength, by rw [hread]⟩
      · cases h
    rw [if_neg hunicode] at h ⊢
    by_cases hdigit : isDigit e
    · rw [if_pos hdigit] at h ⊢
      rw [← List.cons_append, ht.takeWhile_take (by decide)]
      have hle : (((e :: cs).take 3).takeWhile isDigit).length ≤ (e :: cs).length :=
        Nat.le_trans (List.takeWhile_prefix _).length_le (List.length_take_le' _ _)
      have hpos : 0 < (((e :: cs).take 3).takeWhile isDigit).length := by simp [hdigit]
      split at h
      · cases h
      · next hsmall =>
        cases h
        rw [if_neg hsmall, List.drop_append_of_le_length hle]
        refine ⟨?_, rfl⟩
        rw [List.length_drop, List.length_cons]
        omega
    · rw [if_neg hdigit] at h
      cases h

theorem readString_append (ht : Apart tail) {quote : UInt8} (hquote : ¬ 92 == quote) {fuel line line' : Nat}
    {out out' cs rest : List UInt8} (hfuel : cs.length ≤ fuel)
    (h : readString quote fuel line out cs = .ok (out', line', rest)) (fuel' : Nat)
    (hfuel' : (cs ++ tail).length ≤ fuel') :
    rest.length ≤ cs.length ∧
      readString quote fuel' line out (cs ++ tail) = .ok (out', line', rest ++ tail) := by
  induction fuel generalizing fuel' line out cs with
  | zero => cases h
  | succ fuel ih =>
    cases cs with
    | nil => cases h
    | cons b cs =>
      obtain ⟨fuel', rfl⟩ : ∃ n, fuel' = n + 1 := ⟨fuel' - 1, by simp at hfuel'; omega⟩
      simp only [List.cons_append, List.length_cons, List.length_append] at hfuel hfuel' ⊢
      by_cases hslash : b = 92
      · subst hslash
        cases cs with
        | nil =>
          have hbreak : ¬ isBreak 92 := by decide
          simp only [readString] at h
          rw [if_neg hquote, if_neg hbreak] at h
          cases fuel <;> cases h
        | cons e cs =>
          obtain ⟨⟨line'', out'', after⟩, hescape, h⟩ := (readString_escape_iff hquote).mp h
          have hafter : after ≠ [] := by
            rintro rfl
            cases fuel <;> cases h
          rw [List.length_cons] at hfuel hfuel'
          obtain ⟨hshorter, hescape⟩ := readEscape?_append ht (by omega) hescape hafter fuel' (by simp; omega)
          obtain ⟨hlength, hread⟩ := ih (by dsimp only; omega) h fuel' (by simp; omega)
          exact ⟨by simp at hlength ⊢; omega, (readString_escape_iff hquote).mpr ⟨_, hescape, hread⟩⟩
      · simp only [readString] at h ⊢
        by_cases hend : b == quote
        · rw [if_pos hend] at h ⊢
          cases h
          exact ⟨by simp, rfl⟩
        rw [if_neg hend] at h ⊢
        by_cases hbreak : isBreak b
        · rw [if_pos hbreak] at h
          cases h
        rw [if_neg hbreak, if_neg (by simpa using hslash)] at h ⊢
        obtain ⟨hlength, hread⟩ := ih (by omega) h fuel' (by simp; omega)
        exact ⟨by omega, hread⟩

end ScriptHost.Lua.Lexer
