import ScriptHost.Proofs.Decoding
import ScriptHost.Proofs.Json.Reading
/-! The spellings of a string between its quotes, each of which is read as that string. -/
namespace ScriptHost.Config.Json

/-- The number that four hexadecimal digits write. -/
def codeUnit? (w x y z : UInt8) : Option Nat := do
  let w ← hexDigit? w
  let x ← hexDigit? x
  let y ← hexDigit? y
  let z ← hexDigit? z
  return ((w * 16 + x) * 16 + y) * 16 + z

/-- The bytes that can stand for a character between quotes. -/
inductive Spelling : Char → List UInt8 → Prop where
  | plain {c : Char} (hc : ∀ b ∈ String.utf8EncodeChar c, isPlain b) : Spelling c (String.utf8EncodeChar c)
  | letter {c : Char} {e : UInt8} (he : simpleEscape? e = some c) : Spelling c [92, e]
  | code {c : Char} {w x y z : UInt8} (hc : codeUnit? w x y z = some c.toNat) : Spelling c [92, 117, w, x, y, z]
  | pair {high low : Nat} {w x y z w' x' y' z' : UInt8}
      (hhigh : codeUnit? w x y z = some high) (hlow : codeUnit? w' x' y' z' = some low)
      (hleading : 0xD800 ≤ high ∧ high ≤ 0xDBFF) (htrailing : 0xDC00 ≤ low ∧ low ≤ 0xDFFF) :
      Spelling (Char.ofNat ((high - 0xD800) * 1024 + (low - 0xDC00) + 0x10000))
        [92, 117, w, x, y, z, 92, 117, w', x', y', z']

/-- The bytes that can stand for a string between quotes. -/
inductive Spells : List Char → List UInt8 → Prop where
  | nil : Spells [] []
  | cons {c : Char} {cs : List Char} {front back : List UInt8} (hc : Spelling c front) (hcs : Spells cs back) :
      Spells (c :: cs) (front ++ back)

variable {rest : List UInt8}

theorem reads_readHexEscape {w x y z : UInt8} {n : Nat} (hn : codeUnit? w x y z = some n) :
    Reads readHexEscape [w, x, y, z] rest n := by
  intro c hc
  have hsize : ¬ c.text.size < c.index + 4 := by
    have hl := c.length_rest
    rw [hc] at hl
    simp at hl
    omega
  have hdigit (i : Nat) : c.text[c.index + i]? = ([w, x, y, z] ++ rest)[i]? := by
    rw [← hc, c.getElem?_rest]
  simp only [codeUnit?, Option.bind_eq_bind, Option.bind_eq_some_iff] at hn
  obtain ⟨w', hw, x', hx, y', hy, z', hz, hn⟩ := hn
  have hset : (set { c with index := c.index + 4 } : Reader Unit).run.run c = (.ok (), c.advance 4) := rfl
  rw [readHexEscape, run_get_bind, if_neg hsize, run_bind, hset]
  simp only [hdigit, List.cons_append, List.getElem?_cons_zero, List.getElem?_cons_succ, Option.bind_some, hw, hx,
    hy, hz]
  cases hn
  rfl

theorem reads_expectInPair (b : UInt8) : Reads (expectInPair b) [b] rest () := by
  refine .looking reads_peek (.bind_nil (reads_skip b) ?_)
  simp only [beq_self_eq_true, if_true]
  exact .pure ()

theorem reads_readCodePoint {w x y z : UInt8} {c : Char} (hc : codeUnit? w x y z = some c.toNat) :
    Reads readCodePoint [w, x, y, z] rest c := by
  refine .bind_nil (reads_readHexEscape hc) ?_
  have hvalid : c.toNat < 0xD800 ∨ 0xDFFF < c.toNat ∧ c.toNat < 0x110000 := c.valid
  rw [if_neg (by simp; omega), if_neg (by simp; omega), Char.ofNat_toNat]
  exact .pure c

theorem reads_readCodePoint_pair {high low : Nat} {w x y z w' x' y' z' : UInt8}
      (hhigh : codeUnit? w x y z = some high) (hlow : codeUnit? w' x' y' z' = some low)
      (hleading : 0xD800 ≤ high ∧ high ≤ 0xDBFF) (htrailing : 0xDC00 ≤ low ∧ low ≤ 0xDFFF) :
    Reads readCodePoint [w, x, y, z, 92, 117, w', x', y', z'] rest
      (Char.ofNat ((high - 0xD800) * 1024 + (low - 0xDC00) + 0x10000)) := by
  refine (reads_readHexEscape hhigh).bind ?_
  rw [if_neg (by simp; omega), if_pos (by simp; omega)]
  refine .taking (reads_expectInPair 92) (.taking (reads_expectInPair 117) ?_)
  refine .bind_nil (reads_readHexEscape hlow) ?_
  rw [if_pos (by simp; omega)]
  exact .pure _

section Collecting
variable {fuel : Nat} {out result : Text.Bytes} {bytes : List UInt8}

/-- A byte that stands for itself is taken as if it were one of the bytes before. -/
theorem reads_readStringBytes_plain {b : UInt8} (hb : isPlain b)
    (h : Reads (readStringBytes (fuel + 1) (out ++ [b].toByteArray)) bytes rest result) :
    Reads (readStringBytes (fuel + 1) out) (b :: bytes) rest result := by
  intro c hc
  have hrun := runLength_succ hb hc (c.text.size - (c.index + 1))
  rw [← c.size_of_rest hc] at hrun
  have hnext := h (c.advance 1) (by rw [Cursor.rest_advance, hc]; rfl)
  rw [Cursor.advance_advance, Nat.add_comm 1, ← List.length_cons (a := b)] at hnext
  rw [← hnext, readStringBytes, readStringBytes, run_get_bind, run_get_bind, run_bind, run_bind, run_skipWhile,
    run_skipWhile, hrun, Cursor.advance_advance, Nat.add_comm 1]
  dsimp only
  rw [c.extract_succ hc, ← ByteArray.append_assoc]
  rfl

private theorem toUTF8_toString (c : Char) : c.toString.toUTF8 = (String.utf8EncodeChar c).toByteArray := by
  rw [Char.toString, String.toUTF8_eq_toByteArray, String.toByteArray_singleton, List.utf8Encode,
    List.flatMap_singleton]

/-- Where no byte stands for itself, none is collected. -/
private theorem append_extract_nil (c : Cursor) :
    out ++ c.text.extract c.index (c.index + [].length (α := UInt8)) = out := by
  rw [List.length_nil, Nat.add_zero, ByteArray.extract_same, ByteArray.append_empty]

theorem reads_readStringBytes_end : Reads (readStringBytes (fuel + 1) out) [34] rest out := by
  refine reads_get_bind fun place _ => ?_
  refine .looking (reads_skipWhile (by simp) (by simp [isPlain])) ?_
  rw [append_extract_nil]
  exact .bind_nil (reads_next 34) (.pure out)

theorem reads_readStringBytes_letter {c : Char} {e : UInt8} (he : simpleEscape? e = some c)
    (h : Reads (readStringBytes fuel (out ++ (String.utf8EncodeChar c).toByteArray)) bytes rest result) :
    Reads (readStringBytes (fuel + 1) out) (92 :: e :: bytes) rest result := by
  refine reads_get_bind fun place _ => ?_
  refine .looking (reads_skipWhile (by simp) (by simp [isPlain])) ?_
  rw [append_extract_nil]
  refine .taking (reads_next 92) (.taking (reads_next e) ?_)
  split
  · contradiction
  · next hu =>
    cases hu
    cases he
  · next hb =>
    cases hb
    rw [he]
    rwa [← toUTF8_toString] at h

theorem reads_readStringBytes_code {c : Char} {digits : List UInt8}
    (hc : Reads readCodePoint digits (bytes ++ rest) c)
    (h : Reads (readStringBytes fuel (out ++ (String.utf8EncodeChar c).toByteArray)) bytes rest result) :
    Reads (readStringBytes (fuel + 1) out) (92 :: 117 :: (digits ++ bytes)) rest result := by
  refine reads_get_bind fun place _ => ?_
  refine .looking (reads_skipWhile (by simp) (by simp [isPlain])) ?_
  rw [append_extract_nil]
  refine .taking (reads_next 92) (.taking (reads_next 117) ?_)
  rw [← toUTF8_toString] at h
  exact .bind hc h

theorem reads_readStringBytes_plains {front : List UInt8} (hfront : ∀ b ∈ front, isPlain b)
    (h : Reads (readStringBytes (fuel + 1) (out ++ front.toByteArray)) bytes rest result) :
    Reads (readStringBytes (fuel + 1) out) (front ++ bytes) rest result := by
  induction front generalizing out with
  | nil => rwa [List.toByteArray_nil, ByteArray.append_empty] at h
  | cons b front ih =>
    obtain ⟨hb, hfront⟩ := List.forall_mem_cons.mp hfront
    rw [← List.singleton_append, List.toByteArray_append, ← ByteArray.append_assoc] at h
    exact reads_readStringBytes_plain hb (ih hfront h)

end Collecting

theorem Spelling.reads {c : Char} {front bytes : List UInt8} (hc : Spelling c front) {fuel : Nat}
    {out result : Text.Bytes}
    (h : ∀ fuel', fuel ≤ fuel' →
      Reads (readStringBytes fuel' (out ++ (String.utf8EncodeChar c).toByteArray)) bytes rest result) :
    Reads (readStringBytes (fuel + 1) out) (front ++ bytes) rest result := by
  cases hc with
  | plain hc => exact reads_readStringBytes_plains hc (h _ (Nat.le_succ _))
  | letter he => exact reads_readStringBytes_letter he (h _ (Nat.le_refl _))
  | code hc => exact reads_readStringBytes_code (reads_readCodePoint hc) (h _ (Nat.le_refl _))
  | pair hhigh hlow hleading htrailing =>
    exact reads_readStringBytes_code (reads_readCodePoint_pair hhigh hlow hleading htrailing) (h _ (Nat.le_refl _))

theorem Spelling.length_pos {c : Char} {bytes : List UInt8} (hc : Spelling c bytes) : 0 < bytes.length := by
  cases hc with
  | plain _ => exact List.length_pos_iff.mpr String.utf8EncodeChar_ne_nil
  | _ => simp

theorem Spells.length_le {cs : List Char} {bytes : List UInt8} (h : Spells cs bytes) :
    cs.length ≤ bytes.length := by
  induction h with
  | nil => simp
  | cons hc _ ih =>
    have := hc.length_pos
    simp only [List.length_cons, List.length_append]
    omega

theorem Spells.reads_readStringBytes {cs : List Char} {bytes : List UInt8} (h : Spells cs bytes) {fuel : Nat}
    (hfuel : cs.length < fuel) (out : Text.Bytes) :
    Reads (readStringBytes fuel out) (bytes ++ [34]) rest
      (out ++ (cs.flatMap String.utf8EncodeChar).toByteArray) := by
  induction h generalizing fuel out with
  | nil =>
    obtain ⟨fuel, rfl⟩ := Nat.exists_eq_add_of_lt hfuel
    rw [List.flatMap_nil, List.toByteArray_nil, ByteArray.append_empty]
    exact reads_readStringBytes_end
  | cons hc hcs ih =>
    obtain ⟨fuel, rfl⟩ := Nat.exists_eq_add_of_lt hfuel
    rw [List.append_assoc]
    refine hc.reads fun fuel' hle => ?_
    rw [List.flatMap_cons, List.toByteArray_append, ← ByteArray.append_assoc]
    refine ih ?_ _
    simp at hle
    omega

/-- A string is read from each of its spellings. -/
theorem reads_readString {s : String} {bytes : List UInt8} (h : Spells s.toList bytes) :
    Reads readString (bytes ++ [34]) rest s := by
  refine .looking reads_remaining ?_
  have hlength := h.length_le
  have hbytes : Reads (readStringBytes ((bytes ++ [34] ++ rest).length + 1) ByteArray.empty) (bytes ++ [34]) rest
      (ByteArray.empty ++ (s.toList.flatMap String.utf8EncodeChar).toByteArray) :=
    h.reads_readStringBytes (by simp; omega) _
  rw [ByteArray.empty_append] at hbytes
  have hs := hbytes.map Text.decodeLossy
  rwa [Text.decodeLossy_toByteArray, String.ofList_toList] at hs

end ScriptHost.Config.Json
