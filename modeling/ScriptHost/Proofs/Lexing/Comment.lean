import ScriptHost.Proofs.Decoding
import ScriptHost.Proofs.Lexing.Sequence
/-! Comments. One that does not begin with a long bracket takes up the rest of its line; one that does goes on to where
that is closed. -/
namespace ScriptHost

namespace Text

/-- What follows the first place of a part in a text. -/
def afterFirst? (part : List Char) : List Char → Option (List Char)
  | [] => none
  | c :: cs => if part <+: c :: cs then some ((c :: cs).drop part.length) else afterFirst? part cs

theorem afterFirst?_cons {part : List Char} {c : Char} {cs : List Char} (h : ¬ part <+: c :: cs) :
    afterFirst? part (c :: cs) = afterFirst? part cs := if_neg h

theorem afterFirst?_append {part : List Char} (hpart : part ≠ []) (rest : List Char) :
    afterFirst? part (part ++ rest) = some rest := by
  obtain ⟨c, part, rfl⟩ := List.exists_cons_of_ne_nil hpart
  have hprefix : c :: part <+: c :: (part ++ rest) := List.prefix_append (c :: part) rest
  rw [List.cons_append, afterFirst?, if_pos hprefix, ← List.cons_append, List.drop_left]

end Text

namespace Lua
open Text (bytes)

/-- The beginning and the end of a long bracket, with so many equals signs. -/
def longOpening (level : Nat) : List Char := '[' :: (List.replicate level '=' ++ ['['])

def longClosing (level : Nat) : List Char := ']' :: (List.replicate level '=' ++ [']'])

theorem longClosing_ne_nil (level : Nat) : longClosing level ≠ [] := List.cons_ne_nil _ _

namespace Lexer

/-- The equals signs in front of something else. -/
theorem takeWhile_level {b : UInt8} (hb : b ≠ 61) (level : Nat) (rest : List UInt8) :
    (List.replicate level 61 ++ b :: rest).takeWhile (· == 61) = List.replicate level 61 ∧
      (List.replicate level 61 ++ b :: rest).dropWhile (· == 61) = b :: rest := by
  induction level with
  | zero => simp [hb]
  | succ level ih => simpa [List.replicate_succ] using ih

theorem takeWhile_eq_level (cs : List UInt8) :
    cs.takeWhile (· == 61) = List.replicate (cs.takeWhile (· == 61)).length 61 :=
  List.eq_replicate_of_mem fun b hb => eq_of_beq (List.all_eq_true.mp List.all_takeWhile b hb)

theorem longLevel?_iff {cs rest : List UInt8} {level : Nat} :
    longLevel? cs = some (level, rest) ↔ cs = List.replicate level 61 ++ 91 :: rest := by
  unfold longLevel?
  constructor
  · intro h
    split at h
    · next hbracket =>
      cases h
      rw [← hbracket, ← takeWhile_eq_level, List.takeWhile_append_dropWhile]
    · cases h
  · rintro rfl
    obtain ⟨htake, hdrop⟩ := takeWhile_level (b := 91) (by decide) level rest
    simp only [htake, hdrop, List.length_replicate]

theorem closesLevel?_iff {cs rest : List UInt8} {level : Nat} :
    closesLevel? level cs = some rest ↔ cs = List.replicate level 61 ++ 93 :: rest := by
  unfold closesLevel?
  constructor
  · intro h
    split at h
    · next hlevel =>
      split at h
      · next hbracket =>
        cases h
        obtain rfl := eq_of_beq hlevel
        rw [← hbracket, ← takeWhile_eq_level]
        exact (List.prefix_iff_eq_append.mp (List.takeWhile_prefix _)).symm
      · cases h
    · cases h
  · rintro rfl
    obtain ⟨htake, -⟩ := takeWhile_level (b := 93) (by decide) level rest
    simp [htake]

/-- Equals signs and a bracket in the bytes of characters are these characters. -/
theorem bytes_eq_level_iff {c : Char} (hc : c.toNat < 0x80) {level : Nat} {cs : List Char} {rest : List UInt8} :
    bytes cs = List.replicate level 61 ++ UInt8.ofNat c.toNat :: rest ↔
      ∃ cs', cs = List.replicate level '=' ++ c :: cs' ∧ bytes cs' = rest := by
  induction level generalizing cs with
  | zero => exact Text.bytes_eq_cons_iff hc
  | succ level ih =>
    rw [List.replicate_succ, List.cons_append]
    refine (Text.bytes_eq_cons_iff (c := '=') (by decide)).trans ?_
    constructor
    · rintro ⟨cs', rfl, hcs'⟩
      obtain ⟨cs'', rfl, hrest⟩ := ih.mp hcs'
      exact ⟨cs'', rfl, hrest⟩
    · rintro ⟨cs', rfl, hrest⟩
      exact ⟨_, rfl, ih.mpr ⟨cs', rfl, hrest⟩⟩

/-- A comment begins with a long bracket if its text does. -/
theorem longComment?_bytes_iff {cs : List Char} {level : Nat} {after : List UInt8} :
    longComment? (bytes cs) = some (level, after) ↔ ∃ body, cs = longOpening level ++ body ∧ bytes body = after := by
  constructor
  · intro h
    unfold longComment? at h
    split at h
    · next hbytes =>
      obtain ⟨cs', rfl, rfl⟩ := (Text.bytes_eq_cons_iff (c := '[') (by decide)).mp hbytes
      obtain ⟨body, rfl, hbody⟩ := (bytes_eq_level_iff (c := '[') (by decide)).mp (longLevel?_iff.mp h)
      exact ⟨body, by simp [longOpening], hbody⟩
    · cases h
  · rintro ⟨body, rfl, rfl⟩
    have hlevel : bytes (List.replicate level '=' ++ '[' :: body) = List.replicate level 61 ++ 91 :: bytes body :=
      (bytes_eq_level_iff (c := '[') (by decide)).mpr ⟨body, rfl, rfl⟩
    have hopening : bytes (longOpening level ++ body) = 91 :: (List.replicate level 61 ++ 91 :: bytes body) :=
      (Text.bytes_eq_cons_iff (c := '[') (by decide)).mpr ⟨_, by simp [longOpening], hlevel⟩
    rw [hopening]
    exact longLevel?_iff.mpr rfl

/-- The end of a long bracket is in the bytes of characters where it is in the characters. -/
theorem closesLevel?_bytes_iff {cs : List Char} {level : Nat} {after : List UInt8} :
    closesLevel? level (bytes cs) = some after ↔
      ∃ rest, ']' :: cs = longClosing level ++ rest ∧ bytes rest = after := by
  rw [closesLevel?_iff, longClosing]
  refine (bytes_eq_level_iff (c := ']') (by decide)).trans ?_
  simp

/-- Bytes that neither end a line nor begin an end of the bracket. -/
theorem readLong_plain {plain : List UInt8} (hplain : ∀ b ∈ plain, b ≠ 93 ∧ ¬ isBreak b) (level fuel line : Nat)
    (out cs : List UInt8) :
    readLong level (plain.length + fuel) line out (plain ++ cs) =
      readLong level fuel line (plain.reverse ++ out) cs := by
  induction plain generalizing out with
  | nil => simp
  | cons b plain ih =>
    obtain ⟨⟨hb, hbreak⟩, hplain⟩ := List.forall_mem_cons.mp hplain
    rw [List.length_cons, Nat.add_right_comm, List.cons_append, readLong, if_neg (by simpa using hb), if_neg hbreak,
      ih hplain]
    simp

/-- A character on a line. -/
def IsInLine (c : Char) : Prop := c ≠ '\n' ∧ c ≠ '\r'

theorem not_isBreak_of_mem {c : Char} (hc : IsInLine c) : ∀ b ∈ String.utf8EncodeChar c, ¬ isBreak b := by
  intro b hb
  have hfeed : b ≠ 10 := Text.ne_of_mem_utf8EncodeChar (d := '\n') (by decide) hc.1 b hb
  have hreturn : b ≠ 13 := Text.ne_of_mem_utf8EncodeChar (d := '\r') (by decide) hc.2 b hb
  simp [isBreak, hfeed, hreturn]

theorem readLong_closed {level : Nat} {cs rest : List UInt8} (h : closesLevel? level cs = some rest)
    (fuel line : Nat) (out : List UInt8) : readLong level (fuel + 1) line out (93 :: cs) = .ok (out, line, rest) := by
  simp [readLong, h]

theorem readLong_bracket {level : Nat} {cs : List UInt8} (h : closesLevel? level cs = none) (fuel line : Nat)
    (out : List UInt8) : readLong level (fuel + 1) line out (93 :: cs) = readLong level fuel line (93 :: out) cs := by
  simp [readLong, h]

/-- A long bracket is read up to the first place where it is closed, if there is one. -/
theorem readLong_bytes {cs : List Char} (hcs : ∀ c ∈ cs, IsInLine c) (level line : Nat) {fuel : Nat}
    (hfuel : (bytes cs).length ≤ fuel) (out : List UInt8) :
    (∃ rest out', Text.afterFirst? (longClosing level) cs = some rest ∧
        readLong level fuel line out (bytes cs) = .ok (out', line, bytes rest)) ∨
      Text.afterFirst? (longClosing level) cs = none ∧
        ∃ last, readLong level fuel line out (bytes cs) = .error last := by
  induction cs generalizing fuel out with
  | nil => exact .inr ⟨rfl, line, by cases fuel <;> rfl⟩
  | cons c cs ih =>
    obtain ⟨hc, hcs⟩ := List.forall_mem_cons.mp hcs
    rw [Text.bytes_cons, List.length_append] at hfuel
    obtain ⟨fuel, rfl⟩ : ∃ n, fuel = (String.utf8EncodeChar c).length + n := ⟨_, (Nat.add_sub_of_le (by omega)).symm⟩
    have hrest (out : List UInt8) := ih hcs (show (bytes cs).length ≤ fuel by omega) out
    rw [Text.bytes_cons]
    by_cases hc' : c = ']'
    · subst hc'
      have hbytes : String.utf8EncodeChar ']' = [93] := rfl
      rw [hbytes, List.length_singleton, Nat.add_comm, List.singleton_append]
      by_cases hclosing : longClosing level <+: ']' :: cs
      · obtain ⟨rest, hrest⟩ := hclosing
        have hcloses := closesLevel?_bytes_iff.mpr ⟨rest, hrest.symm, rfl⟩
        rw [← hrest, Text.afterFirst?_append (longClosing_ne_nil level)]
        exact .inl ⟨rest, out, rfl, readLong_closed hcloses fuel line out⟩
      · have hnone : closesLevel? level (bytes cs) = none := by
          rw [Option.eq_none_iff_forall_ne_some]
          intro after hafter
          obtain ⟨rest, hrest, -⟩ := closesLevel?_bytes_iff.mp hafter
          exact hclosing ⟨rest, hrest.symm⟩
        rw [Text.afterFirst?_cons hclosing, readLong_bracket hnone]
        exact hrest _
    · have hplain : ∀ b ∈ String.utf8EncodeChar c, b ≠ 93 ∧ ¬ isBreak b := fun b hb =>
        ⟨Text.ne_of_mem_utf8EncodeChar (d := ']') (by decide) hc' b hb, not_isBreak_of_mem hc b hb⟩
      have hclosing : ¬ longClosing level <+: c :: cs := fun h => hc' (List.cons_prefix_cons.mp h).1.symm
      rw [readLong_plain hplain, Text.afterFirst?_cons hclosing]
      exact hrest _

theorem not_isBreak_of_mem_bytes {cs : List Char} (hcs : ∀ c ∈ cs, IsInLine c) : ∀ b ∈ bytes cs, ¬ isBreak b := by
  intro b hb
  obtain ⟨c, hc, hb⟩ := List.mem_flatMap.mp hb
  exact not_isBreak_of_mem (hcs c hc) b hb

theorem readLongBracket_eq {cs : List UInt8} (hcs : ∀ b ∈ cs, ¬ isBreak b) (fuel level line : Nat) :
    readLongBracket fuel level line cs = readLong level fuel line [] cs := by
  cases cs with
  | nil => cases fuel <;> rfl
  | cons b cs => rw [readLongBracket, if_neg (hcs b List.mem_cons_self)]

theorem skip_blank (line : Nat) (cs : List UInt8) : skip line (32 :: cs) = skip line cs := by
  rw [skip, List.length_cons, skipSpace_cons (by simp)]
  rfl

/-- A comment that does not begin with a long bracket takes up the rest of its line. -/
theorem skip_comment {cs : List Char} (hcs : ∀ c ∈ cs, IsInLine c)
    (hopening : ∀ level, ¬ longOpening level <+: cs) (line : Nat) :
    skip line (45 :: 45 :: bytes cs) = .ok (line, []) := by
  have hshort : longComment? (bytes cs) = none := by
    rw [Option.eq_none_iff_forall_ne_some]
    rintro ⟨level, after⟩ hlong
    obtain ⟨body, rfl, -⟩ := longComment?_bytes_iff.mp hlong
    exact hopening level ⟨body, rfl⟩
  have hend : (bytes cs).dropWhile (fun b => !isBreak b) = [] := by
    rw [← List.append_nil (bytes cs), List.dropWhile_append_of_pos, List.dropWhile_nil]
    intro b hb
    simpa using not_isBreak_of_mem_bytes hcs b hb
  rw [skip, List.length_cons, skipSpace_comment, hshort]
  dsimp only
  rw [hend, skipSpace_nil]

/-- A comment that begins with a long bracket ends where that is closed. -/
theorem skip_longComment {body : List Char} (hbody : ∀ c ∈ body, IsInLine c) (level line : Nat) :
    (∃ rest, Text.afterFirst? (longClosing level) body = some rest ∧
        skip line (45 :: 45 :: bytes (longOpening level ++ body)) = skip line (bytes rest)) ∨
      Text.afterFirst? (longClosing level) body = none ∧
        ∃ fault, skip line (45 :: 45 :: bytes (longOpening level ++ body)) = .error fault := by
  have hlong : longComment? (bytes (longOpening level ++ body)) = some (level, bytes body) :=
    longComment?_bytes_iff.mpr ⟨body, rfl, rfl⟩
  have hlength := length_longComment? hlong
  have hread := readLong_bytes hbody level line (Nat.le_succ_of_le (Nat.le_of_lt hlength)) []
  rw [← readLongBracket_eq (not_isBreak_of_mem_bytes hbody)] at hread
  rw [skip, List.length_cons, List.length_cons, skipSpace_comment, hlong]
  dsimp only
  obtain ⟨rest, out, hfirst, hread⟩ | ⟨hfirst, last, hread⟩ := hread
  · rw [hread]
    exact .inl ⟨rest, hfirst, skipSpace_eq_skip (by have := length_readLongBracket hread; omega)⟩
  · rw [hread]
    exact .inr ⟨hfirst, _, rfl⟩

end Lexer
end Lua
end ScriptHost
