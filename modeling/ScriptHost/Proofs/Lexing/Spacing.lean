import ScriptHost.Lua.Lexer
/-! Reading tokens from the front of a longer text. What stands after a blank makes no difference to the tokens in
front of it, and neither does more fuel. -/
namespace ScriptHost.Lua.Lexer

/-- A text that what is in front of it does not run into: it is empty or begins with a blank. -/
def Apart (tail : List UInt8) : Prop := ∀ b ∈ tail.head?, b = 32

variable {tail : List UInt8}

theorem apart_nil : Apart [] := by simp [Apart]

theorem apart_cons (more : List UInt8) : Apart (32 :: more) := by simp [Apart]

theorem Apart.takeWhile (ht : Apart tail) {p : UInt8 → Bool} (hp : p 32 = false) (cs : List UInt8) :
    (cs ++ tail).takeWhile p = cs.takeWhile p := by
  induction cs with
  | nil =>
    cases tail with
    | nil => rfl
    | cons b rest => simp [ht b rfl, hp]
  | cons b rest ih => simp [List.takeWhile_cons, ih]

theorem Apart.dropWhile (ht : Apart tail) {p : UInt8 → Bool} (hp : p 32 = false) (cs : List UInt8) :
    (cs ++ tail).dropWhile p = cs.dropWhile p ++ tail := by
  induction cs with
  | nil =>
    cases tail with
    | nil => rfl
    | cons b rest => simp [ht b rfl, hp]
  | cons b rest ih =>
    rw [List.cons_append, List.dropWhile_cons, List.dropWhile_cons, ih]
    split <;> rfl

theorem Apart.afterBreak (ht : Apart tail) (first : UInt8) (cs : List UInt8) :
    afterBreak first (cs ++ tail) = afterBreak first cs ++ tail := by
  cases cs with
  | nil =>
    cases tail with
    | nil => rfl
    | cons b rest => simp [Lexer.afterBreak, ht b rfl, isBreak]
  | cons b rest =>
    rw [List.cons_append, Lexer.afterBreak, Lexer.afterBreak]
    split <;> rfl

theorem length_afterBreak_le (first : UInt8) (cs : List UInt8) : (afterBreak first cs).length ≤ cs.length := by
  unfold afterBreak
  split
  · split <;> simp
  · exact Nat.le_refl _

/-! Long brackets. -/

theorem Apart.longLevel? (ht : Apart tail) (cs : List UInt8) :
    longLevel? (cs ++ tail) = (longLevel? cs).map fun r => (r.1, r.2 ++ tail) := by
  unfold Lexer.longLevel?
  rw [ht.takeWhile rfl, ht.dropWhile rfl]
  cases hcs : cs.dropWhile (· == 61) with
  | nil =>
    cases tail with
    | nil => rfl
    | cons b rest => simp [ht b rfl]
  | cons b rest =>
    by_cases hb : b = 91
    · simp [hb]
    · simp [hb]

theorem length_longLevel? {cs rest : List UInt8} {level : Nat} (h : longLevel? cs = some (level, rest)) :
    rest.length < cs.length := by
  unfold longLevel? at h
  split at h
  · next hcs =>
    cases h
    have := (cs.dropWhile_suffix (· == 61)).length_le
    rw [hcs, List.length_cons] at this
    omega
  · cases h

theorem Apart.closesLevel? (ht : Apart tail) (level : Nat) (cs : List UInt8) :
    closesLevel? level (cs ++ tail) = (closesLevel? level cs).map (· ++ tail) := by
  unfold Lexer.closesLevel?
  rw [ht.takeWhile rfl]
  split
  · next hlevel =>
    have hle : level ≤ cs.length := by
      rw [← eq_of_beq hlevel]
      exact (List.takeWhile_prefix _).length_le
    rw [List.drop_append_of_le_length hle]
    cases hcs : cs.drop level with
    | nil =>
      cases tail with
      | nil => rfl
      | cons b rest => simp [ht b rfl]
    | cons b rest =>
      by_cases hb : b = 93
      · simp [hb]
      · simp [hb]
  · rfl

theorem length_closesLevel? {cs rest : List UInt8} {level : Nat} (h : closesLevel? level cs = some rest) :
    rest.length < cs.length := by
  unfold closesLevel? at h
  split at h
  · split at h
    · next hcs =>
      cases h
      have := congrArg List.length hcs
      simp at this
      omega
    · cases h
  · cases h

theorem readLong_append (ht : Apart tail) {level fuel line line' : Nat} {out out' cs rest : List UInt8}
    (h : readLong level fuel line out cs = .ok (out', line', rest)) (fuel' : Nat)
    (hfuel : (cs ++ tail).length ≤ fuel') :
    rest.length < cs.length ∧ readLong level fuel' line out (cs ++ tail) = .ok (out', line', rest ++ tail) := by
  induction fuel generalizing fuel' line out cs with
  | zero => cases h
  | succ fuel ih =>
    cases cs with
    | nil => cases h
    | cons b cs =>
      cases fuel' with
      | zero => simp at hfuel
      | succ fuel' =>
        have hbreak := length_afterBreak_le b cs
        simp only [List.cons_append, List.length_cons, List.length_append] at hfuel ⊢
        simp only [readLong] at h ⊢
        rw [ht.closesLevel?, ht.afterBreak]
        by_cases hclose : b == 93
        · rw [if_pos hclose] at h ⊢
          cases hcloses : closesLevel? level cs with
          | some rest' =>
            have := length_closesLevel? hcloses
            rw [hcloses] at h
            cases h
            exact ⟨by omega, rfl⟩
          | none =>
            rw [hcloses] at h
            obtain ⟨hlength, hread⟩ := ih h fuel' (by simp; omega)
            exact ⟨by omega, hread⟩
        · rw [if_neg hclose] at h ⊢
          by_cases hb : isBreak b
          · rw [if_pos hb] at h ⊢
            obtain ⟨hlength, hread⟩ := ih h fuel' (by simp; omega)
            exact ⟨by omega, hread⟩
          · rw [if_neg hb] at h ⊢
            obtain ⟨hlength, hread⟩ := ih h fuel' (by simp; omega)
            exact ⟨by omega, hread⟩

/-- Fuel for all bytes is enough for every outcome. -/
theorem readLong_fuel {level fuel fuel' line : Nat} {out cs : List UInt8} (h : cs.length ≤ fuel)
    (h' : cs.length ≤ fuel') : readLong level fuel line out cs = readLong level fuel' line out cs := by
  induction fuel generalizing fuel' line out cs with
  | zero =>
    obtain rfl := List.length_eq_zero_iff.mp (Nat.le_zero.mp h)
    cases fuel' <;> rfl
  | succ fuel ih =>
    cases cs with
    | nil => cases fuel' <;> rfl
    | cons b cs =>
      cases fuel' with
      | zero => simp at h'
      | succ fuel' =>
        have hbreak := length_afterBreak_le b cs
        rw [List.length_cons] at h h'
        simp only [readLong]
        have hrest (line : Nat) (out : List UInt8) :
            readLong level fuel line out cs = readLong level fuel' line out cs :=
          ih (by omega) (by omega)
        have hbroken (line : Nat) (out : List UInt8) :
            readLong level fuel line out (afterBreak b cs) = readLong level fuel' line out (afterBreak b cs) :=
          ih (by omega) (by omega)
        simp only [hrest, hbroken]

theorem readLongBracket_append (ht : Apart tail) {fuel level line line' : Nat} {out' cs rest : List UInt8}
    (h : readLongBracket fuel level line cs = .ok (out', line', rest)) (fuel' : Nat)
    (hfuel : (cs ++ tail).length ≤ fuel') :
    rest.length < cs.length ∧ readLongBracket fuel' level line (cs ++ tail) = .ok (out', line', rest ++ tail) := by
  cases cs with
  | nil => cases h
  | cons b cs =>
    rw [List.cons_append] at hfuel ⊢
    rw [readLongBracket] at h ⊢
    by_cases hb : isBreak b
    · rw [if_pos hb] at h ⊢
      have hbreak := length_afterBreak_le b cs
      rw [ht.afterBreak]
      obtain ⟨hlength, hread⟩ := readLong_append ht h fuel' (by simp at hfuel ⊢; omega)
      exact ⟨by rw [List.length_cons]; omega, hread⟩
    · rw [if_neg hb] at h ⊢
      exact readLong_append ht h fuel' hfuel

theorem length_readLongBracket {fuel level line line' : Nat} {out' cs rest : List UInt8}
    (h : readLongBracket fuel level line cs = .ok (out', line', rest)) : rest.length < cs.length :=
  (readLongBracket_append apart_nil h _ (Nat.le_refl _)).1

theorem readLongBracket_fuel {fuel fuel' level line : Nat} {cs : List UInt8} (h : cs.length ≤ fuel)
    (h' : cs.length ≤ fuel') : readLongBracket fuel level line cs = readLongBracket fuel' level line cs := by
  cases cs with
  | nil => rfl
  | cons b cs =>
    have hbreak := length_afterBreak_le b cs
    rw [List.length_cons] at h h'
    rw [readLongBracket, readLongBracket, readLong_fuel (by omega) (by omega : (afterBreak b cs).length ≤ fuel'),
      readLong_fuel (by simpa using h) (by simpa using h' : (b :: cs).length ≤ fuel')]

/-! Blanks and comments. -/

/-- The level of the long bracket that a comment is in, and what follows the opening; none if the comment is the rest
of its line. -/
def longComment? (cs : List UInt8) : Option (Nat × List UInt8) :=
  match cs with
  | 91 :: rest => longLevel? rest
  | _ => none

theorem Apart.longComment? (ht : Apart tail) (cs : List UInt8) :
    longComment? (cs ++ tail) = (longComment? cs).map fun r => (r.1, r.2 ++ tail) := by
  cases cs with
  | nil =>
    cases tail with
    | nil => rfl
    | cons b rest => simp [Lexer.longComment?, ht b rfl]
  | cons b cs =>
    by_cases hb : b = 91
    · simp [Lexer.longComment?, hb, ht.longLevel?]
    · simp [Lexer.longComment?, hb]

theorem length_longComment? {cs rest : List UInt8} {level : Nat} (h : longComment? cs = some (level, rest)) :
    rest.length < cs.length := by
  unfold longComment? at h
  split at h
  · have := length_longLevel? h
    rw [List.length_cons]
    omega
  · cases h

/-- A text begins with a token, and neither with a blank nor with a comment. -/
structure BeginsToken (cs : List UInt8) : Prop where
  exists_eq_cons : ∃ b rest, cs = b :: rest ∧ ¬ isBreak b ∧ ¬ isSpace b
  not_comment : ¬ [45, 45] <+: cs

theorem Apart.not_comment (ht : Apart tail) {b : UInt8} {rest : List UInt8} (h : ¬ [45, 45] <+: b :: rest) :
    ¬ [45, 45] <+: b :: (rest ++ tail) := by
  cases rest with
  | nil =>
    cases tail with
    | nil => exact h
    | cons c tail => simp [ht c rfl]
  | cons c rest => simpa using h

theorem BeginsToken.append {cs : List UInt8} (h : BeginsToken cs) (ht : Apart tail) : BeginsToken (cs ++ tail) := by
  obtain ⟨⟨b, rest, rfl, hb⟩, hcomment⟩ := h
  exact ⟨⟨b, rest ++ tail, rfl, hb⟩, ht.not_comment hcomment⟩

/-- A text is empty, or it begins with a comment, a blank or a token. -/
theorem start_cases (cs : List UInt8) :
    cs = [] ∨ (∃ rest, cs = 45 :: 45 :: rest) ∨
      (∃ b rest, cs = b :: rest ∧ ¬ [45, 45] <+: cs ∧ (isBreak b ∨ isSpace b)) ∨ BeginsToken cs := by
  cases cs with
  | nil => exact .inl rfl
  | cons b rest =>
    by_cases hcomment : [45, 45] <+: b :: rest
    · obtain ⟨after, hafter⟩ := hcomment
      exact .inr (.inl ⟨after, hafter.symm⟩)
    · by_cases hb : isBreak b ∨ isSpace b
      · exact .inr (.inr (.inl ⟨b, rest, rfl, hcomment, hb⟩))
      · rw [not_or] at hb
        exact .inr (.inr (.inr ⟨⟨b, rest, rfl, hb⟩, hcomment⟩))

theorem skipSpace_nil (fuel line : Nat) : skipSpace fuel line [] = .ok (line, []) := by
  cases fuel <;> rfl

theorem skipSpace_comment (fuel line : Nat) (rest : List UInt8) :
    skipSpace (fuel + 1) line (45 :: 45 :: rest) =
      match longComment? rest with
      | some (level, body) =>
        match readLongBracket fuel level line body with
        | .ok (_, line, rest) => skipSpace fuel line rest
        | .error last => .error (faultAtEnd last s!"unfinished long comment (starting at line {line})")
      | none => skipSpace fuel line (rest.dropWhile fun b => !isBreak b) := rfl

theorem skipSpace_cons {b : UInt8} {rest : List UInt8} (h : ¬ [45, 45] <+: b :: rest) (fuel line : Nat) :
    skipSpace (fuel + 1) line (b :: rest) =
      if isBreak b then skipSpace fuel (line + 1) (afterBreak b rest)
      else if isSpace b then skipSpace fuel line rest
      else .ok (line, b :: rest) := by
  rw [skipSpace]
  rintro after rfl rfl
  exact h ⟨after, rfl⟩

theorem BeginsToken.skipSpace {cs : List UInt8} (h : BeginsToken cs) (fuel line : Nat) :
    skipSpace fuel line cs = .ok (line, cs) := by
  obtain ⟨⟨b, rest, rfl, hbreak, hspace⟩, hcomment⟩ := h
  cases fuel with
  | zero => rfl
  | succ fuel => rw [skipSpace_cons hcomment, if_neg hbreak, if_neg hspace]

/-- Fuel for all bytes is enough for every outcome. -/
theorem skipSpace_fuel {fuel fuel' line : Nat} {cs : List UInt8} (h : cs.length ≤ fuel) (h' : cs.length ≤ fuel') :
    skipSpace fuel line cs = skipSpace fuel' line cs := by
  induction fuel generalizing fuel' line cs with
  | zero =>
    obtain rfl := List.length_eq_zero_iff.mp (Nat.le_zero.mp h)
    rw [skipSpace_nil, skipSpace_nil]
  | succ fuel ih =>
    obtain rfl | ⟨rest, rfl⟩ | ⟨b, rest, rfl, hcomment, -⟩ | hbegins := start_cases cs
    · rw [skipSpace_nil, skipSpace_nil]
    · obtain ⟨fuel', rfl⟩ : ∃ n, fuel' = n + 1 := ⟨fuel' - 1, by simp at h'; omega⟩
      simp only [List.length_cons] at h h'
      rw [skipSpace_comment, skipSpace_comment]
      cases hlong : longComment? rest with
      | none =>
        have := (rest.dropWhile_suffix fun b => !isBreak b).length_le
        exact ih (by omega) (by omega)
      | some long =>
        obtain ⟨level, body⟩ := long
        have := length_longComment? hlong
        dsimp only
        rw [readLongBracket_fuel (by omega) (by omega : body.length ≤ fuel')]
        cases hread : readLongBracket fuel' level line body with
        | error last => rfl
        | ok read =>
          obtain ⟨out, line', after⟩ := read
          have := length_readLongBracket hread
          exact ih (by omega) (by omega)
    · obtain ⟨fuel', rfl⟩ : ∃ n, fuel' = n + 1 := ⟨fuel' - 1, by simp at h'; omega⟩
      have := length_afterBreak_le b rest
      rw [List.length_cons] at h h'
      have hrest (line : Nat) : skipSpace fuel line rest = skipSpace fuel' line rest := ih (by omega) (by omega)
      have hbroken (line : Nat) : skipSpace fuel line (afterBreak b rest) = skipSpace fuel' line (afterBreak b rest) :=
        ih (by omega) (by omega)
      rw [skipSpace_cons hcomment, skipSpace_cons hcomment, hrest, hbroken]
    · rw [hbegins.skipSpace, hbegins.skipSpace]

/-- What is left begins with a token if it is not empty. -/
theorem skipSpace_ok {fuel line line' : Nat} {cs rest : List UInt8} (hfuel : cs.length ≤ fuel)
    (h : skipSpace fuel line cs = .ok (line', rest)) :
    rest.length ≤ cs.length ∧ (rest = [] ∨ BeginsToken rest) := by
  induction fuel generalizing line cs with
  | zero =>
    obtain rfl := List.length_eq_zero_iff.mp (Nat.le_zero.mp hfuel)
    cases h
    exact ⟨Nat.le_refl _, .inl rfl⟩
  | succ fuel ih =>
    obtain rfl | ⟨text, rfl⟩ | ⟨b, text, rfl, hcomment, hb⟩ | hbegins := start_cases cs
    · cases h
      exact ⟨Nat.le_refl _, .inl rfl⟩
    · simp only [List.length_cons] at hfuel ⊢
      rw [skipSpace_comment] at h
      cases hlong : longComment? text with
      | none =>
        have := (text.dropWhile_suffix fun b => !isBreak b).length_le
        rw [hlong] at h
        obtain ⟨hlength, hbegins⟩ := ih (by omega) h
        exact ⟨by omega, hbegins⟩
      | some long =>
        obtain ⟨level, body⟩ := long
        have := length_longComment? hlong
        rw [hlong] at h
        dsimp only at h
        cases hread : readLongBracket fuel level line body with
        | error last =>
          rw [hread] at h
          cases h
        | ok read =>
          obtain ⟨out, line', after⟩ := read
          have := length_readLongBracket hread
          rw [hread] at h
          obtain ⟨hlength, hbegins⟩ := ih (by omega) h
          exact ⟨by omega, hbegins⟩
    · have := length_afterBreak_le b text
      simp only [List.length_cons] at hfuel ⊢
      rw [skipSpace_cons hcomment] at h
      by_cases hbreak : isBreak b
      · rw [if_pos hbreak] at h
        obtain ⟨hlength, hbegins⟩ := ih (by omega) h
        exact ⟨by omega, hbegins⟩
      · rw [if_neg hbreak, if_pos (hb.resolve_left hbreak)] at h
        obtain ⟨hlength, hbegins⟩ := ih (by omega) h
        exact ⟨by omega, hbegins⟩
    · rw [hbegins.skipSpace] at h
      cases h
      exact ⟨Nat.le_refl _, .inr hbegins⟩

/-- What stands at the front of a text has been passed over, whatever follows. -/
def PassesTo (line : Nat) (cs : List UInt8) (line' : Nat) (rest : List UInt8) : Prop :=
  ∀ tail fuel, Apart tail → (cs ++ tail).length ≤ fuel →
    skipSpace fuel line (cs ++ tail) = skipSpace fuel line' (rest ++ tail)

/-- A text ends in a comment that goes on to the end of its line. -/
def Swallows (line : Nat) (cs : List UInt8) (line' : Nat) : Prop :=
  ∀ more fuel, (∀ b ∈ more, ¬ isBreak b) → (cs ++ 32 :: more).length ≤ fuel →
    skipSpace fuel line (cs ++ 32 :: more) = .ok (line', [])

/-- The blanks and comments at the front are the same with more text behind them, unless that belongs to a comment. -/
theorem skipSpace_append {fuel line line' : Nat} {cs rest : List UInt8} (hfuel : cs.length ≤ fuel)
    (h : skipSpace fuel line cs = .ok (line', rest)) :
    PassesTo line cs line' rest ∨ rest = [] ∧ Swallows line cs line' := by
  induction fuel generalizing line cs with
  | zero =>
    obtain rfl := List.length_eq_zero_iff.mp (Nat.le_zero.mp hfuel)
    cases h
    exact .inl fun _ _ _ _ => rfl
  | succ fuel ih =>
    -- One step leads from a text to another one, also with more behind it.
    have step {line'' : Nat} {cs' : List UInt8} (hlength : cs'.length < cs.length)
        (h : skipSpace fuel line'' cs' = .ok (line', rest))
        (hstep : ∀ tail fuel', Apart tail → (cs ++ tail).length ≤ fuel' + 1 →
          skipSpace (fuel' + 1) line (cs ++ tail) = skipSpace fuel' line'' (cs' ++ tail)) :
        PassesTo line cs line' rest ∨ rest = [] ∧ Swallows line cs line' := by
      have hrest := (skipSpace_ok (by omega) h).1
      obtain hpasses | ⟨hnil, hswallows⟩ := ih (by omega) h
      · refine .inl fun tail fuel' ht hfuel' => ?_
        simp only [List.length_append] at hfuel'
        obtain ⟨fuel', rfl⟩ : ∃ n, fuel' = n + 1 := ⟨fuel' - 1, by omega⟩
        rw [hstep tail fuel' ht (by simp; omega), hpasses tail fuel' ht (by simp; omega)]
        exact skipSpace_fuel (by simp; omega) (by simp; omega)
      · refine .inr ⟨hnil, fun more fuel' hmore hfuel' => ?_⟩
        simp only [List.length_append, List.length_cons] at hfuel'
        obtain ⟨fuel', rfl⟩ : ∃ n, fuel' = n + 1 := ⟨fuel' - 1, by omega⟩
        rw [hstep (32 :: more) fuel' (apart_cons more) (by simp; omega)]
        exact hswallows more fuel' hmore (by simp; omega)
    obtain rfl | ⟨text, rfl⟩ | ⟨b, text, rfl, hcomment, hb⟩ | hbegins := start_cases cs
    · cases h
      exact .inl fun _ _ _ _ => rfl
    · rw [skipSpace_comment] at h
      cases hlong : longComment? text with
      | none =>
        rw [hlong] at h
        have hshorter := (text.dropWhile_suffix fun b => !isBreak b).length_le
        by_cases hend : (text.dropWhile fun b => !isBreak b) = []
        · dsimp only at h
          rw [hend, skipSpace_nil] at h
          cases h
          refine .inr ⟨rfl, fun more fuel' hmore hfuel' => ?_⟩
          simp only [List.cons_append, List.length_cons, List.length_append] at hfuel' ⊢
          obtain ⟨fuel', rfl⟩ : ∃ n, fuel' = n + 1 := ⟨fuel' - 1, by omega⟩
          have hrest : (32 :: more).dropWhile (fun b => !isBreak b) = [] := by
            rw [← List.append_nil (32 :: more), List.dropWhile_append_of_pos, List.dropWhile_nil]
            rintro b (_ | ⟨_, hb⟩)
            · rfl
            · simpa using hmore b hb
          rw [skipSpace_comment, (apart_cons more).longComment?, hlong]
          dsimp only [Option.map_none]
          rw [List.dropWhile_append, hend, hrest]
          exact skipSpace_nil _ _
        · refine step (by simp; omega) h fun tail fuel' ht hfuel' => ?_
          rw [List.cons_append, List.cons_append, skipSpace_comment, ht.longComment?, hlong]
          dsimp only [Option.map_none]
          rw [List.dropWhile_append, if_neg (by simpa using hend)]
      | some long =>
        obtain ⟨level, body⟩ := long
        have := length_longComment? hlong
        rw [hlong] at h
        dsimp only at h
        cases hread : readLongBracket fuel level line body with
        | error last =>
          rw [hread] at h
          cases h
        | ok read =>
          obtain ⟨out, line'', after⟩ := read
          have := length_readLongBracket hread
          rw [hread] at h
          refine step (by simp; omega) h fun tail fuel' ht hfuel' => ?_
          simp only [List.cons_append, List.length_cons, List.length_append] at hfuel' ⊢
          rw [skipSpace_comment, ht.longComment?, hlong]
          dsimp only [Option.map_some]
          rw [(readLongBracket_append ht hread fuel' (by simp; omega)).2]
    · have hshorter := length_afterBreak_le b text
      rw [skipSpace_cons hcomment] at h
      by_cases hbreak : isBreak b
      · rw [if_pos hbreak] at h
        refine step (by simp; omega) h fun tail fuel' ht hfuel' => ?_
        rw [List.cons_append, skipSpace_cons (ht.not_comment hcomment), if_pos hbreak, ht.afterBreak]
      · have hspace := hb.resolve_left hbreak
        rw [if_neg hbreak, if_pos hspace] at h
        refine step (by simp) h fun tail fuel' ht hfuel' => ?_
        rw [List.cons_append, skipSpace_cons (ht.not_comment hcomment), if_neg hbreak, if_pos hspace]
    · rw [hbegins.skipSpace] at h
      cases h
      exact .inl fun _ _ _ _ => rfl

end ScriptHost.Lua.Lexer
