import ScriptHost.Lua.Lexer
import ScriptHost.Source.Expression
/-! Identifiers. An identifier is one token, whatever it is made of, and rewriting an expression leaves it as it
is. -/
namespace ScriptHost.Lua
open Text (Bytes)

instance : LawfulBEq Bytes where
  rfl {a} := beq_self_eq_true a.data
  eq_of_beq h := ByteArray.ext (eq_of_beq (α := Array UInt8) h)

/-- A letter or the underscore. -/
def startsName (c : Char) : Bool := c.isAlpha || c == '_'

/-- A letter, a digit or the underscore. -/
def isNameChar (c : Char) : Bool := startsName c || c.isDigit

/-- Letters, digits and underscores with no digit in front, and no reserved word. -/
def isIdentifier (name : String) : Bool :=
  match name.toList with
  | first :: rest => startsName first && rest.all isNameChar && Keyword.all.all (·.spelling != name)
  | [] => false

/-- An identifier by its characters. -/
theorem isIdentifier_iff (name : String) :
    isIdentifier name ↔
      (∃ first rest, name.toList = first :: rest ∧ startsName first ∧ ∀ c ∈ name.toList, isNameChar c) ∧
        ∀ k : Keyword, k.spelling ≠ name := by
  have hall (k : Keyword) : k ∈ Keyword.all := by cases k <;> decide
  unfold isIdentifier
  cases name.toList with
  | nil => simp
  | cons first rest =>
    simp only [Bool.and_eq_true, List.all_eq_true, bne_iff_ne, ne_eq]
    constructor
    · rintro ⟨⟨hfirst, hrest⟩, hwords⟩
      refine ⟨⟨first, rest, rfl, hfirst, fun c hc => ?_⟩, fun k => hwords k (hall k)⟩
      rcases List.mem_cons.mp hc with rfl | hc
      · simp [isNameChar, hfirst]
      · exact hrest c hc
    · rintro ⟨⟨_, _, heq, hfirst, hchars⟩, hwords⟩
      cases heq
      exact ⟨⟨hfirst, fun c hc => hchars c (List.mem_cons_of_mem _ hc)⟩, fun k _ => hwords k⟩

section Bytes
variable {c : Char}

theorem val_of_startsName (hc : startsName c) :
    97 ≤ c.val.toNat ∧ c.val.toNat ≤ 122 ∨ 65 ≤ c.val.toNat ∧ c.val.toNat ≤ 90 ∨ c.val.toNat = 95 := by
  have halpha : c.isAlpha = (decide (c.val ≥ 'A'.val ∧ c.val ≤ 'Z'.val) ||
      (decide (c.val ≥ 'a'.val) && decide (c.val ≤ 'z'.val))) := rfl
  simp only [startsName, halpha, Bool.or_eq_true, Bool.and_eq_true,
    decide_eq_true_eq, beq_iff_eq, ge_iff_le, UInt32.le_iff_toNat_le] at hc
  rcases hc with (⟨hlow, hhigh⟩ | ⟨hlow, hhigh⟩) | rfl
  · exact .inr (.inl ⟨hlow, hhigh⟩)
  · exact .inl ⟨hlow, hhigh⟩
  · exact .inr (.inr rfl)

theorem val_of_isNameChar (hc : isNameChar c) : startsName c ∨ 48 ≤ c.val.toNat ∧ c.val.toNat ≤ 57 := by
  simp only [isNameChar, Char.isDigit, Bool.or_eq_true, Bool.and_eq_true, decide_eq_true_eq, ge_iff_le,
    UInt32.le_iff_toNat_le] at hc
  exact hc

private theorem toNat_toUInt8 (hc : c.val.toNat < 256) : c.toUInt8.toNat = c.val.toNat :=
  (UInt32.toNat_toUInt8 _).trans (Nat.mod_eq_of_lt hc)

theorem isLetter_of_startsName (hc : startsName c) : isLetter c.toUInt8 := by
  have hval := val_of_startsName hc
  have hbyte := toNat_toUInt8 (c := c) (by omega)
  simp only [isLetter, Bool.or_eq_true, Bool.and_eq_true, decide_eq_true_eq, beq_iff_eq, UInt8.le_iff_toNat_le,
    ← UInt8.toNat_inj, hbyte]
  change ((97 ≤ c.val.toNat ∧ c.val.toNat ≤ 122) ∨ 65 ≤ c.val.toNat ∧ c.val.toNat ≤ 90) ∨ c.val.toNat = 95
  omega

theorem isNameByte_of_isNameChar (hc : isNameChar c) : Lexer.isNameByte c.toUInt8 := by
  rw [Lexer.isNameByte, Bool.or_eq_true]
  rcases val_of_isNameChar hc with hstart | ⟨hlow, hhigh⟩
  · exact .inl (isLetter_of_startsName hstart)
  · right
    have hbyte := toNat_toUInt8 (c := c) (by omega)
    simp only [isDigit, Bool.and_eq_true, decide_eq_true_eq, UInt8.le_iff_toNat_le, hbyte]
    exact ⟨hlow, hhigh⟩

/-- The characters of names take one byte each. -/
theorem utf8EncodeChar_of_isNameChar (hc : isNameChar c) : String.utf8EncodeChar c = [c.toUInt8] := by
  refine String.utf8EncodeChar_eq_singleton (Char.utf8Size_eq_one_iff.mpr ?_)
  rw [UInt32.le_iff_toNat_le]
  change c.val.toNat ≤ 127
  rcases val_of_isNameChar hc with hstart | ⟨hlow, hhigh⟩
  · have hval := val_of_startsName hstart
    omega
  · omega

end Bytes

private theorem flatMap_utf8EncodeChar {cs : List Char} (hcs : ∀ c ∈ cs, isNameChar c) :
    cs.flatMap String.utf8EncodeChar = cs.map Char.toUInt8 := by
  induction cs with
  | nil => rfl
  | cons c rest ih =>
    rw [List.flatMap_cons, utf8EncodeChar_of_isNameChar (hcs c List.mem_cons_self),
      ih fun c hc => hcs c (List.mem_cons_of_mem _ hc)]
    rfl

theorem bytes_of_nameChars {name : String} (hn : ∀ c ∈ name.toList, isNameChar c) :
    name.toUTF8.data.toList = name.toList.map Char.toUInt8 := by
  rw [String.toUTF8_eq_toByteArray, ← String.utf8Encode_toList, List.utf8Encode,
    List.toList_data_toByteArray, flatMap_utf8EncodeChar hn]

/-- The bytes of an identifier are those of a name, with a letter in front, and no reserved word has them. -/
theorem bytes_of_isIdentifier {name : String} (hn : isIdentifier name) :
    (∃ b rest, name.toUTF8.data.toList = b :: rest ∧ isLetter b) ∧
      (∀ b ∈ name.toUTF8.data.toList, Lexer.isNameByte b) ∧ Keyword.ofBytes? name.toUTF8 = none := by
  obtain ⟨⟨first, rest, heq, hfirst, hchars⟩, hwords⟩ := (isIdentifier_iff name).mp hn
  rw [bytes_of_nameChars hchars]
  refine ⟨⟨first.toUInt8, rest.map Char.toUInt8, ?_, isLetter_of_startsName hfirst⟩, fun b hb => ?_, ?_⟩
  · rw [heq, List.map_cons]
  · obtain ⟨c, hc, rfl⟩ := List.mem_map.mp hb
    exact isNameByte_of_isNameChar (hchars c hc)
  · rw [Keyword.ofBytes?, List.find?_eq_none]
    intro k _ hk
    exact hwords k (String.toByteArray_inj.mp (beq_iff_eq.mp hk))

namespace Lexer

/-- A letter is no blank and starts no comment. -/
theorem skipSpace_letter {b : UInt8} (hb : isLetter b) (fuel line : Nat) (rest : List UInt8) :
    skipSpace (fuel + 1) line (b :: rest) = .ok (line, b :: rest) := by
  have hminus : b ≠ 45 := by
    rintro rfl
    cases hb
  have hspace : isBreak b = false ∧ isSpace b = false := by
    simp only [isLetter, Bool.or_eq_true, Bool.and_eq_true, decide_eq_true_eq, beq_iff_eq,
      UInt8.le_iff_toNat_le, ← UInt8.toNat_inj, UInt8.reduceToNat] at hb
    simp only [isBreak, isSpace, Bool.or_eq_false_iff, Bool.and_eq_false_iff, decide_eq_false_iff_not,
      beq_eq_false_iff_ne, ne_eq, UInt8.le_iff_toNat_le, ← UInt8.toNat_inj, UInt8.reduceToNat]
    omega
  unfold skipSpace
  split
  · next heq => exact absurd (List.cons.inj heq).1 hminus
  · next heq =>
    cases heq
    simp [hspace]
  · next heq => cases heq

/-- What a word is as a token. -/
def wordToken (word : Bytes) : Token :=
  match Keyword.ofBytes? word with
  | some k => .keyword k
  | none => .name word

/-- A word is one token, up to the first byte that cannot be part of it. -/
theorem readToken_word {b : UInt8} {word rest : List UInt8} (hb : isLetter b)
    (hword : ∀ c ∈ b :: word, isNameByte c) (hrest : ∀ c, rest.head? = some c → ¬ isNameByte c)
    (fuel line : Nat) :
    readToken fuel line (b :: word ++ rest) =
      .ok ⟨wordToken ⟨(b :: word).toArray⟩, b :: word, line, rest⟩ := by
  have htake : (b :: word ++ rest).takeWhile isNameByte = b :: word := by
    rw [List.takeWhile_append_of_pos hword]
    cases rest with
    | nil => simp
    | cons c tail => rw [List.takeWhile_cons_of_neg (hrest c rfl), List.append_nil]
  have hdrop : (b :: word ++ rest).dropWhile isNameByte = rest := by
    rw [List.dropWhile_append_of_pos hword]
    cases rest with
    | nil => rfl
    | cons c tail => rw [List.dropWhile_cons_of_neg (hrest c rfl)]
  rw [List.cons_append] at htake hdrop ⊢
  simp only [readToken, hb, if_true, htake, hdrop]
  rfl

theorem wordToken_ne_endOfText (word : Bytes) : wordToken word ≠ .endOfText := by
  unfold wordToken
  split <;> exact Token.noConfusion

/-- A word is read after the blanks before it. -/
theorem tokensOnto_word {fuel line line' : Nat} {cs : List UInt8} {b : UInt8} {word rest : List UInt8}
    (hskip : skipSpace fuel line cs = .ok (line', b :: word ++ rest)) (hb : isLetter b)
    (hword : ∀ c ∈ b :: word, isNameByte c) (hrest : ∀ c, rest.head? = some c → ¬ isNameByte c)
    (out : Array Lexeme) :
    tokensOnto (fuel + 1) line out cs =
      tokensOnto fuel line' (out.push ⟨wordToken ⟨(b :: word).toArray⟩, line', ⟨(b :: word).toArray⟩⟩) rest := by
  have hread := readToken_word hb hword hrest fuel line'
  simp only [tokensOnto, hskip, bind, Except.bind, hread]
  split
  · next hend => exact absurd hend (wordToken_ne_endOfText _)
  · rfl

theorem tokensOnto_nil (fuel line : Nat) (out : Array Lexeme) :
    tokensOnto (fuel + 2) line out [] = out.push ⟨.endOfText, line, ByteArray.empty⟩ := rfl

/-- The letters of `return` after the first. -/
def returnTail : List UInt8 := [101, 116, 117, 114, 110]

theorem wordToken_return : wordToken ⟨(114 :: returnTail).toArray⟩ = .keyword .return := by
  have hkeyword : Keyword.ofBytes? ⟨(114 :: returnTail).toArray⟩ = some .return := by decide +kernel
  rw [wordToken, hkeyword]

/-- The tokens of a chunk that returns what an identifier stands for. -/
theorem tokens_return {name : String} (hn : isIdentifier name) :
    (tokens ("return " ++ name).toUTF8).toList =
      [⟨.keyword .return, 1, "return".toUTF8⟩, ⟨.name name.toUTF8, 1, name.toUTF8⟩,
        ⟨.endOfText, 1, ByteArray.empty⟩] := by
  obtain ⟨⟨b, rest, hbytes, hb⟩, hname, hword⟩ := bytes_of_isIdentifier hn
  rw [hbytes] at hname
  have htext : ("return " ++ name).toUTF8.data.toList = 114 :: returnTail ++ 32 :: b :: rest := by
    have happend : ("return " ++ name).toUTF8 = "return ".toUTF8 ++ name.toUTF8 := String.toByteArray_append
    rw [happend, ByteArray.data_append, Array.toList_append, hbytes]
    rfl
  have hspelling : (⟨(b :: rest).toArray⟩ : Bytes) = name.toUTF8 := by rw [← hbytes]
  have hnamed : wordToken ⟨(b :: rest).toArray⟩ = .name name.toUTF8 := by rw [hspelling, wordToken, hword]
  have hfirst : skipSpace (rest.length + 8) 1 (114 :: returnTail ++ 32 :: b :: rest) =
      .ok (1, 114 :: returnTail ++ 32 :: b :: rest) := skipSpace_letter rfl _ _ _
  have hblank : skipSpace (rest.length + 7) 1 (32 :: b :: rest) = .ok (1, b :: rest ++ []) := by
    rw [List.append_nil]
    exact skipSpace_letter hb _ _ _
  have hreturn := tokensOnto_word hfirst rfl (by decide +kernel) (by rintro _ ⟨⟩; decide) #[]
  have hidentifier := tokensOnto_word hblank hb hname (by rintro _ ⟨⟩)
  have hfuel : (114 :: returnTail ++ 32 :: b :: rest).length + 1 = rest.length + 9 := by simp [returnTail]
  unfold tokens
  dsimp only
  rw [htext, hfuel, hreturn, hidentifier, tokensOnto_nil, wordToken_return, hnamed, hspelling]
  rfl

end Lexer
end ScriptHost.Lua

namespace ScriptHost.Source

theorem replacePair_of_ne {a b : Char} {new cs : List Char} (hcs : ∀ c ∈ cs, c ≠ a) :
    replacePair a b new cs = cs := by
  fun_induction replacePair a b new cs with
  | case1 => rfl
  | case2 => rfl
  | case3 c d rest heq ih => simp_all
  | case4 c d rest hne ih => rw [ih fun c hc => hcs c (List.mem_cons_of_mem _ hc)]

theorem replaceEach_of_ne {a : Char} {new cs : List Char} (hcs : ∀ c ∈ cs, c ≠ a) :
    replaceEach a new cs = cs := by
  induction cs with
  | nil => rfl
  | cons c rest ih =>
    rw [replaceEach, ih fun c hc => hcs c (List.mem_cons_of_mem _ hc),
      if_neg (by simpa using hcs c List.mem_cons_self)]
    rfl

/-- An identifier has no comment markers and no plus sign. -/
theorem prepareExpression_identifier {name : String} (hn : Lua.isIdentifier name) :
    prepareExpression name = name := by
  obtain ⟨⟨first, rest, heq, hfirst, hchars⟩, -⟩ := (Lua.isIdentifier_iff name).mp hn
  have hne {a : Char} (ha : Lua.isNameChar a = false) : ∀ c ∈ name.toList, c ≠ a := by
    rintro c hc rfl
    rw [hchars c hc] at ha
    cases ha
  have hplus : dropPlus name.toList = name.toList := by
    unfold dropPlus
    split
    · next hcs => exact absurd rfl (hne (a := '+') rfl _ (hcs ▸ List.mem_cons_self))
    · rfl
  rw [prepareExpression, prepareChars, replacePair_of_ne (hne rfl), replaceEach_of_ne (hne rfl), hplus,
    String.ofList_toList]

end ScriptHost.Source
