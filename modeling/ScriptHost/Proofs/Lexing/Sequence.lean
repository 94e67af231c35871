import ScriptHost.Proofs.Lexing.Token
/-! The tokens of a text with more text behind it. -/
namespace ScriptHost.Lua
open Text (Bytes)

/-- This is a token, or the end of a text. -/
def Lexeme.IsReadable (lexeme : Lexeme) : Prop := ∀ message, lexeme.token ≠ .invalid message

namespace Lexer

/-- The token of a step, the end of a text, and a place where no token can be read, as they stand in a list of
tokens. -/
def Step.lexeme (step : Step) : Lexeme := ⟨step.token, step.line, ⟨step.spelling.toArray⟩⟩

def endLexeme (line : Nat) : Lexeme := ⟨.endOfText, line, ByteArray.empty⟩

def Fault.lexeme (fault : Fault) : Lexeme := ⟨.invalid fault.message, fault.line, ByteArray.empty⟩

variable {tail : List UInt8}

/-- The place after the blanks and comments at the front of a text. -/
def skip (line : Nat) (cs : List UInt8) : Except Fault (Nat × List UInt8) := skipSpace cs.length line cs

theorem skipSpace_eq_skip {fuel line : Nat} {cs : List UInt8} (hfuel : cs.length ≤ fuel) :
    skipSpace fuel line cs = skip line cs :=
  skipSpace_fuel hfuel (Nat.le_refl _)

/-- Some tokens have been read from the front of a text, which leads from one line to another. -/
inductive Lexes : Nat → List UInt8 → List Lexeme → Nat → List UInt8 → Prop
  | nil (line : Nat) (cs : List UInt8) : Lexes line cs [] line cs
  | cons {line line' last : Nat} {b : UInt8} {cs rest after : List UInt8} {step : Step} {lexemes : List Lexeme} :
      skip line cs = .ok (line', b :: rest) → readToken cs.length line' (b :: rest) = .ok step →
        Lexes step.line step.rest lexemes last after → Lexes line cs (step.lexeme :: lexemes) last after

theorem Step.before_nil (step : Step) : step.before [] = step := by simp [before]

/-- The front of a text is read in the same way from a longer text. -/
theorem Lexes.append {line last : Nat} {cs after : List UInt8} {lexemes : List Lexeme}
    (h : Lexes line cs lexemes last after) (ht : Apart tail) :
    Lexes line (cs ++ tail) lexemes last (after ++ tail) := by
  induction h with
  | nil line cs => exact .nil line (cs ++ tail)
  | @cons line line' last b cs rest after step lexemes hskip hread _ ih =>
    have hlength := skipSpace_ok (Nat.le_refl _) hskip
    have hpasses : PassesTo line cs line' (b :: rest) :=
      (skipSpace_append (Nat.le_refl _) hskip).resolve_right fun h => by cases h.1
    have hbegins : BeginsToken (b :: rest) := hlength.2.resolve_left (by simp)
    have hlt : rest.length < cs.length := hlength.1
    obtain ⟨-, -, hread⟩ := readToken_append ht b hlt hread (cs ++ tail).length (by simp; omega)
    have hskip' : skip line (cs ++ tail) = .ok (line', b :: (rest ++ tail)) := by
      rw [skip, hpasses tail _ ht (Nat.le_refl _)]
      exact (hbegins.append ht).skipSpace ..
    have hcons := Lexes.cons hskip' hread ih
    exact hcons

theorem isProper_of_lexes {line last : Nat} {cs after : List UInt8} {lexemes : List Lexeme}
    (h : Lexes line cs lexemes last after) : ∀ lexeme ∈ lexemes, lexeme.token.isProper := by
  induction h with
  | nil => simp
  | @cons line line' last b cs rest after step lexemes hskip hread _ ih =>
    have hlt : rest.length < cs.length := (skipSpace_ok (Nat.le_refl _) hskip).1
    obtain ⟨-, hproper, -⟩ := readToken_append apart_nil b hlt hread (cs ++ []).length (by simpa using hlt)
    rintro lexeme (_ | ⟨_, hmem⟩)
    · exact hproper
    · exact ih _ hmem

theorem tokensOnto_step {fuel line line' : Nat} {cs rest : List UInt8} {step : Step}
    (hskip : skipSpace fuel line cs = .ok (line', rest)) (hread : readToken fuel line' rest = .ok step)
    (hproper : step.token.isProper) (out : Array Lexeme) :
    tokensOnto (fuel + 1) line out cs = tokensOnto fuel step.line (out.push step.lexeme) step.rest := by
  rw [tokensOnto, hskip]
  simp only [Bind.bind, Except.bind, hread]
  cases htoken : step.token <;> simp [Step.lexeme, htoken]
  rw [htoken] at hproper
  cases hproper

theorem tokensOnto_end {fuel line line' : Nat} {cs : List UInt8} (hskip : skipSpace fuel line cs = .ok (line', []))
    (out : Array Lexeme) : tokensOnto (fuel + 1) line out cs = out.push (endLexeme line') := by
  rw [tokensOnto, hskip]
  rfl

theorem tokensOnto_skip_fault {fuel line : Nat} {cs : List UInt8} {fault : Fault}
    (hskip : skipSpace fuel line cs = .error fault) (out : Array Lexeme) :
    tokensOnto (fuel + 1) line out cs = out.push fault.lexeme := by
  rw [tokensOnto, hskip]
  rfl

theorem tokensOnto_read_fault {fuel line line' : Nat} {cs rest : List UInt8} {fault : Fault}
    (hskip : skipSpace fuel line cs = .ok (line', rest)) (hread : readToken fuel line' rest = .error fault)
    (out : Array Lexeme) : tokensOnto (fuel + 1) line out cs = out.push fault.lexeme := by
  rw [tokensOnto, hskip]
  simp only [Bind.bind, Except.bind, hread]
  rfl

/-- The tokens that are read from the front of a text are its first. -/
theorem Lexes.tokensOnto {line last : Nat} {cs after : List UInt8} {lexemes : List Lexeme}
    (h : Lexes line cs lexemes last after) {fuel : Nat} (hfuel : cs.length < fuel) (out : Array Lexeme) :
    ∃ fuel', after.length < fuel' ∧
      tokensOnto fuel line out cs = tokensOnto fuel' last (out ++ lexemes.toArray) after := by
  induction h generalizing fuel out with
  | nil line cs => exact ⟨fuel, hfuel, by simp⟩
  | @cons line line' last b cs rest after step lexemes hskip hread _ ih =>
    obtain ⟨fuel, rfl⟩ : ∃ n, fuel = n + 1 := ⟨fuel - 1, by omega⟩
    have hlt : rest.length < cs.length := (skipSpace_ok (Nat.le_refl _) hskip).1
    obtain ⟨hlength, hproper, hread⟩ := readToken_append apart_nil b hlt hread fuel (by simp; omega)
    rw [List.append_nil, Step.before_nil] at hread
    obtain ⟨fuel', hfuel', htokens⟩ := ih (show step.rest.length < fuel by omega) (out.push step.lexeme)
    refine ⟨fuel', hfuel', ?_⟩
    rw [tokensOnto_step ((skipSpace_eq_skip (by omega)).trans hskip) hread hproper, htokens]
    simp

/-- The tokens of a text are read from its front until there is nothing left or no token can be read. -/
theorem exists_lexes {fuel : Nat} {cs : List UInt8} (hfuel : cs.length < fuel) (line : Nat) (out : Array Lexeme) :
    ∃ lexemes last after, Lexes line cs lexemes last after ∧
      ((∃ line', skip last after = .ok (line', []) ∧
          Lexer.tokensOnto fuel line out cs = (out ++ lexemes.toArray).push (endLexeme line')) ∨
        ∃ fault, Lexer.tokensOnto fuel line out cs = (out ++ lexemes.toArray).push (Fault.lexeme fault)) := by
  induction fuel generalizing line cs out with
  | zero => cases hfuel
  | succ fuel ih =>
    have hfuel' : cs.length ≤ fuel := by omega
    have hskip : skipSpace fuel line cs = skip line cs := skipSpace_eq_skip hfuel'
    cases hresult : skip line cs with
    | error fault =>
      rw [hresult] at hskip
      exact ⟨[], line, cs, .nil .., .inr ⟨fault, by simp [tokensOnto_skip_fault hskip]⟩⟩
    | ok place =>
      obtain ⟨line', rest⟩ := place
      rw [hresult] at hskip
      cases rest with
      | nil => exact ⟨[], line, cs, .nil .., .inl ⟨line', hresult, by simp [tokensOnto_end hskip]⟩⟩
      | cons b rest =>
        have hlt : rest.length < cs.length := (skipSpace_ok (Nat.le_refl _) hresult).1
        cases hread : readToken fuel line' (b :: rest) with
        | error fault =>
          exact ⟨[], line, cs, .nil .., .inr ⟨fault, by simp [tokensOnto_read_fault hskip hread]⟩⟩
        | ok step =>
          obtain ⟨hlength, hproper, hread'⟩ :=
            readToken_append apart_nil b (Nat.lt_of_lt_of_le hlt hfuel') hread cs.length (by simpa using hlt)
          rw [List.append_nil, Step.before_nil] at hread'
          obtain ⟨lexemes, last, after, hlexes, hends⟩ :=
            ih (show step.rest.length < fuel by omega) step.line (out.push step.lexeme)
          refine ⟨step.lexeme :: lexemes, last, after, .cons hresult hread' hlexes, ?_⟩
          rw [tokensOnto_step hskip hread hproper]
          simpa using hends

theorem Lexes.trans {line line' last : Nat} {cs rest after : List UInt8} {lexemes more : List Lexeme}
    (h : Lexes line cs lexemes line' rest) (hmore : Lexes line' rest more last after) :
    Lexes line cs (lexemes ++ more) last after := by
  induction h with
  | nil => exact hmore
  | cons hskip hread _ ih => exact .cons hskip hread (ih hmore)

/-- What follows the same blanks and comments is the same. -/
theorem Lexes.of_skip_eq {line line' last final : Nat} {cs cs' after : List UInt8} {lexemes : List Lexeme}
    (h : Lexes line cs lexemes last after) (hend : skip last after = .ok (final, []))
    (heq : skip line cs = skip line' cs') :
    ∃ last' after', Lexes line' cs' lexemes last' after' ∧ skip last' after' = .ok (final, []) := by
  cases h with
  | nil => exact ⟨line', cs', .nil .., heq.symm.trans hend⟩
  | @cons _ _ _ b _ rest _ step _ hskip hread hrest =>
    have hskip' := heq.symm.trans hskip
    have hlt : rest.length < cs.length := (skipSpace_ok (Nat.le_refl _) hskip).1
    have hlt' : rest.length < cs'.length := (skipSpace_ok (Nat.le_refl _) hskip').1
    obtain ⟨-, -, hread'⟩ := readToken_append apart_nil b hlt hread cs'.length (by simpa using hlt')
    rw [List.append_nil, Step.before_nil] at hread'
    exact ⟨last, after, .cons hskip' hread' hrest, hend⟩

/-- Every token of a text could be read. -/
def IsReadable (lexemes : Array Lexeme) : Prop := ∀ lexeme ∈ lexemes, lexeme.IsReadable

theorem tokens_eq (text : Bytes) :
    tokens text = Lexer.tokensOnto (text.data.toList.length + 1) 1 #[] text.data.toList := rfl

/-- A text that is read to its end has the tokens read and its end. -/
theorem Lexes.tokens_eq {text : Bytes} {last line : Nat} {after : List UInt8} {lexemes : List Lexeme}
    (h : Lexes 1 text.data.toList lexemes last after) (hend : skip last after = .ok (line, [])) :
    tokens text = lexemes.toArray.push (endLexeme line) := by
  obtain ⟨fuel, hfuel, htokens⟩ := h.tokensOnto (Nat.lt_succ_self _) #[]
  obtain ⟨fuel, rfl⟩ : ∃ n, fuel = n + 1 := ⟨fuel - 1, by omega⟩
  rw [Lexer.tokens_eq, htokens, tokensOnto_end ((skipSpace_eq_skip (by omega)).trans hend), Array.empty_append]

/-- The tokens of a text have no end among them but the last, and if that is none, it could not be read. -/
theorem tokens_cases (text : Bytes) :
    (∃ lexemes last after line, Lexes 1 text.data.toList lexemes last after ∧ skip last after = .ok (line, []) ∧
        tokens text = lexemes.toArray.push (endLexeme line)) ∨
      ∃ (lexemes : List Lexeme) (fault : Fault), (∀ lexeme ∈ lexemes, lexeme.token.isProper) ∧
        tokens text = lexemes.toArray.push fault.lexeme := by
  obtain ⟨lexemes, last, after, hlexes, ⟨line, hend, htokens⟩ | ⟨fault, htokens⟩⟩ :=
    exists_lexes (Nat.lt_succ_self text.data.toList.length) 1 #[]
  · exact .inl ⟨lexemes, last, after, line, hlexes, hend, hlexes.tokens_eq hend⟩
  · refine .inr ⟨lexemes, fault, isProper_of_lexes hlexes, ?_⟩
    rw [Lexer.tokens_eq, htokens, Array.empty_append]

theorem not_isReadable_push_fault (lexemes : Array Lexeme) (fault : Fault) :
    ¬ IsReadable (lexemes.push fault.lexeme) :=
  fun h => h fault.lexeme Array.mem_push_self fault.message rfl

/-- Texts that differ in blanks and comments after the same tokens have the same tokens, if they can be read. -/
theorem tokens_eq_of_skip_eq {text text' : Bytes} {last last' : Nat} {after after' : List UInt8}
    {lexemes : List Lexeme} (h : Lexes 1 text.data.toList lexemes last after)
    (h' : Lexes 1 text'.data.toList lexemes last' after') (heq : skip last after = skip last' after')
    (hreadable : IsReadable (tokens text)) : tokens text' = tokens text := by
  obtain ⟨fuel, hfuel, htokens⟩ := h.tokensOnto (Nat.lt_succ_self _) #[]
  obtain ⟨more, final, behind, hmore, ⟨line, hend, hends⟩ | ⟨fault, hfault⟩⟩ :=
    exists_lexes hfuel last (#[] ++ lexemes.toArray)
  · obtain ⟨final', behind', hmore', hend'⟩ := hmore.of_skip_eq hend heq
    rw [(h'.trans hmore').tokens_eq hend', (h.trans hmore).tokens_eq hend]
  · rw [Lexer.tokens_eq, htokens, hfault] at hreadable
    exact absurd hreadable (not_isReadable_push_fault _ _)

theorem Lexes.not_isReadable {text : Bytes} {last : Nat} {after : List UInt8} {lexemes : List Lexeme} {fault : Fault}
    (h : Lexes 1 text.data.toList lexemes last after) (hfault : skip last after = .error fault) :
    ¬ IsReadable (tokens text) := by
  obtain ⟨fuel, hfuel, htokens⟩ := h.tokensOnto (Nat.lt_succ_self _) #[]
  obtain ⟨fuel, rfl⟩ : ∃ n, fuel = n + 1 := ⟨fuel - 1, by omega⟩
  rw [Lexer.tokens_eq, htokens, tokensOnto_skip_fault ((skipSpace_eq_skip (by omega)).trans hfault)]
  exact not_isReadable_push_fault _ _

/-! What follows a text. -/

/-- What follows a text on its last line is part of a comment. -/
def EndsInComment (text : Bytes) : Prop :=
  ∀ (text' : Bytes) (more : List UInt8), text'.data.toList = text.data.toList ++ 32 :: more →
    (∀ b ∈ more, ¬ isBreak b) → tokens text' = tokens text

/-- What follows a text is read from a line on, after the tokens of the text. -/
def ReadsFrom (text : Bytes) (line : Nat) : Prop :=
  ∃ lexemes last after, Lexes 1 text.data.toList lexemes last after ∧
    ∀ tail, Apart tail → skip last (after ++ tail) = skip line tail

theorem endsInComment_or_readsFrom {text : Bytes} (h : IsReadable (tokens text)) :
    EndsInComment text ∨ ∃ line, ReadsFrom text line := by
  obtain ⟨lexemes, last, after, line, hlexes, hend, htokens⟩ | ⟨lexemes, fault, -, htokens⟩ := tokens_cases text
  · obtain hpasses | ⟨-, hswallows⟩ := skipSpace_append (Nat.le_refl _) hend
    · refine .inr ⟨line, lexemes, last, after, hlexes, fun tail ht => ?_⟩
      rw [skip, hpasses tail _ ht (Nat.le_refl _)]
      exact skipSpace_eq_skip (by simp)
    · refine .inl fun text' more htext' hmore => ?_
      have hlexes' := hlexes.append (apart_cons more)
      rw [← htext'] at hlexes'
      rw [htokens, hlexes'.tokens_eq (hswallows more _ hmore (Nat.le_refl _))]
  · rw [htokens] at h
    exact absurd h (not_isReadable_push_fault _ _)

variable {text text' text'' : Bytes} {line : Nat} {tail' : List UInt8}

/-- Texts that go on with the same tokens have the same tokens, if they can be read. -/
theorem ReadsFrom.tokens_eq (h : ReadsFrom text line) (ht : Apart tail) (ht' : Apart tail')
    (htext' : text'.data.toList = text.data.toList ++ tail) (htext'' : text''.data.toList = text.data.toList ++ tail')
    (hskip : skip line tail = skip line tail') (hreadable : IsReadable (tokens text')) :
    tokens text'' = tokens text' := by
  obtain ⟨lexemes, last, after, hlexes, hreads⟩ := h
  have hlexes' := hlexes.append ht
  have hlexes'' := hlexes.append ht'
  rw [← htext'] at hlexes'
  rw [← htext''] at hlexes''
  exact tokens_eq_of_skip_eq hlexes' hlexes'' (by rw [hreads tail ht, hreads tail' ht', hskip]) hreadable

theorem ReadsFrom.not_isReadable (h : ReadsFrom text line) (ht : Apart tail)
    (htext' : text'.data.toList = text.data.toList ++ tail) {fault : Fault} (hskip : skip line tail = .error fault) :
    ¬ IsReadable (tokens text') := by
  obtain ⟨lexemes, last, after, hlexes, hreads⟩ := h
  have hlexes' := hlexes.append ht
  rw [← htext'] at hlexes'
  exact hlexes'.not_isReadable ((hreads tail ht).trans hskip)

end Lexer
end ScriptHost.Lua
