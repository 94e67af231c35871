import ScriptHost.Config.Toml.Reader
import ScriptHost.Config.Toml.Writer
/-! What the readers of a TOML document do with the characters in front of them: keys without quotes, basic strings,
truth values, and the lines that they make up. -/
namespace ScriptHost.Config.Toml

/-- Where some characters are followed by others, the reader takes just the first ones and returns `a`. -/
def Reads {α : Type} (reader : Reader α) (front rest : List Char) (a : α) : Prop :=
  reader.run (front ++ rest) = some (a, rest)

variable {α β : Type} {front back rest : List Char} {a : α} {b : β}

theorem Reads.pure (a : α) : Reads (Pure.pure a) [] rest a := rfl

theorem Reads.bind {reader : Reader α} {next : α → Reader β} (hfront : Reads reader front (back ++ rest) a)
    (hback : Reads (next a) back rest b) : Reads (reader >>= next) (front ++ back) rest b := by
  unfold Reads at *
  rw [StateT.run_bind, List.append_assoc, hfront]
  exact hback

/-- A reader that takes nothing leaves all to what follows. -/
theorem Reads.looking {reader : Reader α} {next : α → Reader β} (hlook : Reads reader [] (front ++ rest) a)
    (hnext : Reads (next a) front rest b) : Reads (reader >>= next) front rest b :=
  hlook.bind hnext

theorem Reads.taking {reader : Reader α} {next : α → Reader β} {c : Char}
    (htake : Reads reader [c] (front ++ rest) a) (hnext : Reads (next a) front rest b) :
    Reads (reader >>= next) (c :: front) rest b :=
  htake.bind hnext

theorem Reads.bind_nil {reader : Reader α} {next : α → Reader β} (hfront : Reads reader front rest a)
    (hback : Reads (next a) [] rest b) : Reads (reader >>= next) front rest b := by
  have h := hfront.bind hback
  rwa [List.append_nil] at h

theorem reads_get_bind {next : List Char → Reader α} (h : Reads (next (front ++ rest)) front rest a) :
    Reads (get >>= next) front rest a := h

theorem reads_peek : Reads peek [] rest rest.head? := rfl

theorem reads_skip (c : Char) : Reads skip [c] rest () := rfl

theorem reads_takeWhile {p : Char → Bool} (hp : ∀ c ∈ front, p c) (hr : ∀ c ∈ rest.head?, p c = false) :
    Reads (takeWhile p) front rest front := by
  have hend : rest.takeWhile p = [] ∧ rest.dropWhile p = rest := by
    cases rest with
    | nil => exact ⟨rfl, rfl⟩
    | cons c rest =>
      have hc := hr c rfl
      simp [hc]
  change some ((front ++ rest).takeWhile p, (front ++ rest).dropWhile p) = _
  rw [List.takeWhile_append_of_pos hp, List.dropWhile_append_of_pos hp, hend.1, hend.2, List.append_nil]

theorem reads_expect (s : List Char) : Reads (expect s) s rest () := by
  refine reads_get_bind ?_
  rw [if_pos (List.isPrefixOf_iff_prefix.mpr (List.prefix_append s rest))]
  change some ((), (s ++ rest).drop s.length) = some ((), rest)
  rw [List.drop_left]

/-- Exactly the blanks are skipped. -/
theorem reads_skipBlanks {blanks : List Char} (hb : ∀ c ∈ blanks, c = ' ' ∨ c = '\t')
    (hr : ∀ c ∈ rest.head?, c ≠ ' ' ∧ c ≠ '\t') : Reads skipBlanks blanks rest () := by
  refine .bind_nil (reads_takeWhile (fun c hc => ?_) fun c hc => ?_) (.pure ())
  · simpa using hb c hc
  · simpa using hr c hc

theorem reads_endLine : Reads endLine ['\n'] rest () :=
  rfl

section Strings
variable {fuel : Nat} {out : List Char} {c : Char} {text : String}

/-- A character that is escaped is read like any other. -/
theorem reads_readBasic_escape (escape : List Char) (hc : Reads readEscape escape (front ++ rest) c)
    (h : Reads (readBasic fuel (c :: out)) front rest text) :
    Reads (readBasic (fuel + 1) out) ('\\' :: (escape ++ front)) rest text :=
  .looking reads_peek (.taking (reads_skip '\\') (.bind hc h))

theorem reads_readBasic_plain (hquote : c ≠ '"') (hslash : c ≠ '\\') (hc : isPlain c)
    (h : Reads (readBasic fuel (c :: out)) front rest text) :
    Reads (readBasic (fuel + 1) out) (c :: front) rest text := by
  refine .looking reads_peek ?_
  split
  · next heq =>
    cases heq
    exact absurd rfl hquote
  · next heq =>
    cases heq
    exact absurd rfl hslash
  · next heq =>
    cases heq
    rw [if_pos hc]
    exact .taking (reads_skip c) h
  · next heq => cases heq

theorem reads_readBasic_end : Reads (readBasic (fuel + 1) out) ['"'] rest (String.ofList out.reverse) :=
  rfl

theorem reads_readCodePoint {digits : List Char} {count n : Nat} (hcount : digits.length = count)
    (hdigits : (digits.filterMap digit?).length = count) (hn : spell 16 (digits.filterMap digit?) = n)
    (hvalid : n < 0xD800) : Reads (readCodePoint count) digits rest (Char.ofNat n) := by
  have htake : (digits ++ rest).take count = digits := by rw [← hcount, List.take_left]
  have hdrop : (digits ++ rest).drop count = rest := by rw [← hcount, List.drop_left]
  have hin : ((0xD800 ≤ n && n ≤ 0xDFFF) || decide (0x10FFFF < n)) = false := by simp; omega
  have hset : Reads (do set ((digits ++ rest).drop count); return Char.ofNat n) digits rest (Char.ofNat n) :=
    congrArg (fun cs => some (Char.ofNat n, cs)) hdrop
  refine reads_get_bind ?_
  simp only [htake, hdigits, bne_self_eq_false, Bool.false_eq_true, if_false, hn, hin]
  exact hset

/-- The digits of a code point below 128. -/
private theorem digits_below : ∀ n : Fin 128,
    let digits := (Numeral.padZeros 4 (Numeral.digits 16 n)).toList
    digits.length = 4 ∧ (digits.filterMap digit?).length = 4 ∧ spell 16 (digits.filterMap digit?) = n.val := by
  decide +kernel

theorem reads_readEscape_code (hc : c.toNat < 128) :
    Reads readEscape ('u' :: (Numeral.padZeros 4 (Numeral.digits 16 c.toNat)).toList) rest c := by
  obtain ⟨hlength, hdigits, hn⟩ := digits_below ⟨c.toNat, hc⟩
  have hcode : Reads (readCodePoint 4) _ rest (Char.ofNat c.toNat) :=
    reads_readCodePoint hlength hdigits hn (by omega)
  rw [Char.ofNat_toNat] at hcode
  exact .looking reads_peek (.taking (reads_skip 'u') hcode)

theorem isPlain_of_not_control (hc : ¬ (c.toNat < 32 || c.toNat == 127)) : isPlain c := by
  simp only [Bool.or_eq_true, decide_eq_true_eq, beq_iff_eq, not_or, Nat.not_lt] at hc
  have hdelete : c ≠ '\x7f' := by
    rintro rfl
    exact hc.2 rfl
  have hspace : ' ' ≤ c := hc.1
  simp [isPlain, hdelete, hspace]

theorem reads_readBasic_char (h : Reads (readBasic fuel (c :: out)) front rest text) :
    Reads (readBasic (fuel + 1) out) ((escapeChar c).toList ++ front) rest text := by
  unfold escapeChar
  split
  case h_8 hquote hslash _ _ _ _ _ =>
    split
    · next hlow =>
      have hc : c.toNat < 128 := by simp at hlow; omega
      rw [String.toList_append]
      exact reads_readBasic_escape _ (reads_readEscape_code hc) h
    · next hlow =>
      rw [Char.toString, String.toList_singleton]
      exact reads_readBasic_plain hquote hslash (isPlain_of_not_control hlow) h
  all_goals exact reads_readBasic_escape [_] rfl h

/-- What a text is written as between its quotes. -/
def escaped (cs : List Char) : List Char := (String.join (cs.map escapeChar)).toList

theorem escaped_cons (c : Char) (cs : List Char) : escaped (c :: cs) = (escapeChar c).toList ++ escaped cs := by
  rw [escaped, List.map_cons, String.join_cons, String.toList_append]
  rfl

theorem toList_string (text : String) : (string text).toList = '"' :: (escaped text.toList ++ ['"']) := by
  rw [string, String.toList_append, String.toList_append]
  rfl

/-- Every text is read from what it is written as. -/
theorem reads_readBasic (cs : List Char) (hfuel : cs.length < fuel) :
    Reads (readBasic fuel out) (escaped cs ++ ['"']) rest (String.ofList (out.reverse ++ cs)) := by
  induction cs generalizing fuel out with
  | nil =>
    obtain ⟨fuel, rfl⟩ := Nat.exists_eq_add_of_lt hfuel
    rw [List.append_nil]
    exact reads_readBasic_end
  | cons c cs ih =>
    obtain ⟨fuel, rfl⟩ := Nat.exists_eq_add_one_of_ne_zero (Nat.ne_zero_of_lt hfuel)
    have hrest := @ih fuel (c :: out) (Nat.lt_of_succ_lt_succ hfuel)
    rw [List.reverse_cons, List.append_assoc, List.singleton_append] at hrest
    rw [escaped_cons, List.append_assoc]
    exact reads_readBasic_char hrest

/-- What a character is written as begins with no quote. -/
theorem exists_toList_escapeChar (c : Char) : ∃ d cs, (escapeChar c).toList = d :: cs ∧ d ≠ '"' := by
  unfold escapeChar
  split
  case h_8 hquote hslash _ _ _ _ _ =>
    split
    · rw [String.toList_append]
      exact ⟨'\\', _, rfl, by decide⟩
    · rw [Char.toString, String.toList_singleton]
      exact ⟨c, [], rfl, hquote⟩
  all_goals exact ⟨'\\', [_], rfl, by decide⟩

theorem length_le_escaped (cs : List Char) : cs.length ≤ (escaped cs).length := by
  induction cs with
  | nil => exact Nat.zero_le _
  | cons c cs ih =>
    obtain ⟨d, ds, hd, -⟩ := exists_toList_escapeChar c
    rw [escaped_cons, hd, List.length_cons, List.length_append, List.length_cons]
    omega

theorem reads_readString (text : String) (hr : rest.head? ≠ some '"') :
    Reads (readString true) (string text).toList rest text := by
  have hbasic {fuel : Nat} (hfuel : text.toList.length < fuel) :
      Reads (readBasic fuel []) (escaped text.toList ++ ['"']) rest text := by
    have h : Reads (readBasic fuel []) (escaped text.toList ++ ['"']) rest
        (String.ofList ([].reverse ++ text.toList)) := reads_readBasic text.toList hfuel
    rwa [List.reverse_nil, List.nil_append, String.ofList_toList] at h
  have hlength := length_le_escaped text.toList
  -- Three quotes in a row would begin a string over several lines.
  have hquotes : ∀ cs, escaped text.toList ++ '"' :: rest ≠ '"' :: '"' :: cs := by
    intro cs heq
    cases htext : text.toList with
    | nil =>
      rw [htext] at heq
      obtain rfl : rest = '"' :: cs := (List.cons.inj heq).2
      exact hr rfl
    | cons c cs =>
      obtain ⟨d, ds, hd, hne⟩ := exists_toList_escapeChar c
      rw [htext, escaped_cons, hd] at heq
      exact hne (List.cons.inj heq).1
  rw [toList_string]
  refine reads_get_bind ?_
  split
  · next heq =>
    rw [List.cons_append, List.append_assoc] at heq
    exact absurd (List.cons.inj heq).2 (hquotes _)
  · next heq => cases heq
  · next heq =>
    obtain rfl := (List.cons.inj heq).2
    exact .taking (c := '"') rfl (hbasic (by simp; omega))
  · next heq => cases heq
  · next hno _ => exact absurd rfl (hno _)

end Strings

section Values
variable {depth : Nat}

theorem reads_readValue_string (text : String) (hr : rest.head? ≠ some '"') :
    Reads (readValue (depth + 1)) (string text).toList rest (.string text) := by
  have hstring : Reads (do return Value.string (← readString true)) (string text).toList rest (.string text) :=
    .bind_nil (reads_readString text hr) (.pure (Value.string text))
  rw [toList_string] at hstring ⊢
  exact .looking reads_peek hstring

theorem reads_readValue_bool (on : Bool) (hr : ∀ c ∈ rest.head?, endsScalar c) :
    Reads (readValue (depth + 1)) (bool on).toList rest (.boolean on) := by
  have hend : ∀ c ∈ rest.head?, (!endsScalar c) = false := fun c hc => by simp [hr c hc]
  cases on with
  | true =>
    refine .looking reads_peek (.bind_nil (reads_takeWhile (List.all_eq_true.mp (by decide)) hend) ?_)
    exact .pure _
  | false =>
    refine .looking reads_peek (.bind_nil (reads_takeWhile (List.all_eq_true.mp (by decide)) hend) ?_)
    exact .pure _

end Values

/-- A name that needs no quotes. -/
def IsBare (name : String) : Prop := name.toList ≠ [] ∧ ∀ c ∈ name.toList, isKeyChar c

instance (name : String) : Decidable (IsBare name) := @instDecidableAnd _ _ _ (List.decidableBAll _ _)

/-- A name that needs no quotes begins with none of them, and with nothing else that a line may begin with. -/
theorem IsBare.exists_eq_cons {name : String} (hname : IsBare name) :
    ∃ c cs, name.toList = c :: cs ∧ c ∉ [' ', '\t', '#', '\n', '\r', '[', '"', '\''] := by
  obtain ⟨c, cs, hcs⟩ := List.exists_cons_of_ne_nil hname.1
  have hc : isKeyChar c := hname.2 c (hcs ▸ List.mem_cons_self)
  refine ⟨c, cs, hcs, fun hmem => ?_⟩
  have hnone : ∀ c ∈ [' ', '\t', '#', '\n', '\r', '[', '"', '\''], isKeyChar c = false := by simp [isKeyChar]
  rw [hnone c hmem] at hc
  cases hc

theorem reads_readName {name : String} (hname : IsBare name) (hr : ∀ c ∈ rest.head?, isKeyChar c = false) :
    Reads readName name.toList rest name := by
  have hbare : Reads (do
      let cs ← takeWhile isKeyChar
      if cs.isEmpty then refuse else return String.ofList cs) name.toList rest name := by
    refine .bind_nil (reads_takeWhile hname.2 hr) ?_
    rw [List.isEmpty_eq_false_iff.mpr hname.1, String.ofList_toList]
    exact .pure name
  obtain ⟨c, cs, hcs, hc⟩ := hname.exists_eq_cons
  rw [hcs] at hbare ⊢
  refine .looking reads_peek ?_
  split
  · next heq =>
    cases heq
    exact absurd (by decide) hc
  · next heq =>
    cases heq
    exact absurd (by decide) hc
  · exact hbare

theorem reads_readKey {name : String} (hname : IsBare name) {blanks : List Char}
    (hb : ∀ c ∈ blanks, c = ' ' ∨ c = '\t') {d : Char} (hd : d = '=' ∨ d = ']') :
    Reads readKey (name.toList ++ blanks) (d :: rest) [name] := by
  have hafter : ∀ c ∈ (blanks ++ d :: rest).head?, isKeyChar c = false := by
    cases blanks with
    | nil =>
      rintro _ ⟨⟩
      obtain rfl | rfl := hd <;> rfl
    | cons b blanks =>
      rintro _ ⟨⟩
      obtain rfl | rfl := hb b List.mem_cons_self <;> rfl
  have hbegin : ∀ c ∈ (name.toList ++ blanks ++ d :: rest).head?, c ≠ ' ' ∧ c ≠ '\t' := by
    obtain ⟨c, cs, hcs, hc⟩ := hname.exists_eq_cons
    rw [hcs]
    rintro _ ⟨⟩
    exact ⟨fun h => hc (by simp [h]), fun h => hc (by simp [h])⟩
  have hend : ∀ c ∈ (d :: rest).head?, c ≠ ' ' ∧ c ≠ '\t' := by
    rintro _ ⟨⟩
    obtain rfl | rfl := hd <;> decide
  refine reads_get_bind (.looking (reads_skipBlanks (by simp) hbegin) ?_)
  refine .bind (reads_readName hname hafter) (.bind_nil (reads_skipBlanks hb hend) (.looking reads_peek ?_))
  obtain rfl | rfl := hd <;> exact .pure [name]

end ScriptHost.Config.Toml
