import ScriptHost.Config.Json.Reader
import ScriptHost.Proofs.Json.Spelling
/-! Values and objects of a JSON text that are read: with any blanks between the tokens, in any spelling of the
strings, and with the members of an object in any order. -/
namespace ScriptHost.Config.Json

/-- Bytes that are skipped between tokens. -/
def Blank (bytes : List UInt8) : Prop := ∀ b ∈ bytes, isBlank b

/-- What stands before a member of an object: blanks, and a comma unless the member is the first. -/
inductive Separator : Bool → List UInt8 → Prop where
  | first {blanks : List UInt8} (hb : Blank blanks) : Separator true blanks
  | later {before after : List UInt8} (hbefore : Blank before) (hafter : Blank after) :
      Separator false (before ++ 44 :: after)

/-- A member of an object, from the opening quote of its name on. -/
def memberBytes (key blanks body : List UInt8) : List UInt8 := 34 :: (key ++ 34 :: (blanks ++ 58 :: body))

/-- The members of an object up to its closing brace, and what they make out of a value. Names that `field` knows
may not repeat those in `seen`, nor each other. -/
inductive Members {α : Type} (field : String → α → Option (Reader α)) :
    Bool → List String → α → List UInt8 → α → Prop where
  | done {first : Bool} {seen : List String} {value : α} {blanks : List UInt8} (hb : Blank blanks) :
      Members field first seen value blanks value
  | known {first : Bool} {seen : List String} {value value' result : α} {name : String} {reader : Reader α}
      {lead key blanks body tail : List UInt8} (hlead : Separator first lead) (hkey : Spells name.toList key)
      (hb : Blank blanks) (hfield : field name value = some reader) (hseen : name ∉ seen)
      (hbody : ∀ rest, Reads reader body (tail ++ 125 :: rest) value')
      (htail : Members field false (name :: seen) value' tail result) :
      Members field first seen value (lead ++ (memberBytes key blanks body ++ tail)) result
  | unknown {first : Bool} {seen : List String} {value result : α} {name : String}
      {lead key blanks body tail : List UInt8} (hlead : Separator first lead) (hkey : Spells name.toList key)
      (hb : Blank blanks) (hfield : field name value = none)
      (hbody : ∀ rest, Reads skipValue body (tail ++ 125 :: rest) ())
      (htail : Members field false seen value tail result) :
      Members field first seen value (lead ++ (memberBytes key blanks body ++ tail)) result

variable {α : Type} {a : α} {blanks bytes rest : List UInt8}

theorem Blank.nil : Blank [] := by simp [Blank]

theorem Blank.reads_peekToken (hb : Blank blanks) {b : UInt8} (hn : isBlank b = false) :
    Reads peekToken blanks (b :: rest) (some b) :=
  Json.reads_peekToken hb (by simpa using hn)

theorem Blank.reads_peekValue (hb : Blank blanks) {b : UInt8} (hn : isBlank b = false) :
    Reads peekValue blanks (b :: rest) b :=
  .bind_nil (hb.reads_peekToken hn) (.pure b)

section Scalars

theorem reads_readStringAs (hb : Blank blanks) {s : String} (hs : Spells s.toList bytes) (expected : Expected)
    {use : String → Reader α} (huse : Reads (use s) [] rest a) :
    Reads (readStringAs expected use) (blanks ++ 34 :: (bytes ++ [34])) rest a := by
  refine .located (.bind (hb.reads_peekValue (by decide)) ?_)
  rw [if_pos (by decide)]
  exact .taking (reads_skip 34) (.bind_nil (reads_readString hs) huse)

theorem reads_readText (hb : Blank blanks) {s : String} (hs : Spells s.toList bytes) :
    Reads readText (blanks ++ 34 :: (bytes ++ [34])) rest s :=
  reads_readStringAs hb hs .string (.pure s)

theorem reads_readBool_true (hb : Blank blanks) : Reads readBool (blanks ++ [116, 114, 117, 101]) rest true := by
  refine .located (.bind (hb.reads_peekValue (by decide)) ?_)
  exact .taking (reads_skip 116) (.bind_nil (reads_readWord [114, 117, 101]) (.pure true))

theorem reads_readBool_false (hb : Blank blanks) :
    Reads readBool (blanks ++ [102, 97, 108, 115, 101]) rest false := by
  refine .located (.bind (hb.reads_peekValue (by decide)) ?_)
  exact .taking (reads_skip 102) (.bind_nil (reads_readWord [97, 108, 115, 101]) (.pure false))

theorem reads_readLevel (hb : Blank blanks) {level : LogLevel} (hs : Spells level.name.toList bytes) :
    Reads readLevel (blanks ++ 34 :: (bytes ++ [34])) rest level := by
  refine .bind (hb.reads_peekToken (by decide)) ?_
  refine reads_readStringAs Blank.nil hs .variantName ?_
  have hname : LogLevel.ofName? level.name = some level := by cases level <;> decide
  rw [levelNamed, hname]
  exact .pure level

end Scalars

section Objects
variable {field : String → α → Option (Reader α)} {first : Bool} {seen : List String} {value result : α}

theorem Separator.reads_hasKey {lead : List UInt8} (h : Separator first lead) :
    Reads (hasKey first) lead (34 :: rest) true := by
  cases h with
  | first hb => exact .bind_nil (hb.reads_peekToken (by decide)) (.pure true)
  | later hbefore hafter =>
    refine .bind (hbefore.reads_peekToken (by decide)) (.taking (reads_skip 44) ?_)
    exact .bind_nil (hafter.reads_peekToken (by decide)) (.pure true)

theorem Blank.reads_hasKey (hb : Blank blanks) : Reads (hasKey first) blanks (125 :: rest) false :=
  .bind_nil (hb.reads_peekToken (by decide)) (.pure false)

theorem Blank.reads_readColon (hb : Blank blanks) : Reads readColon (blanks ++ [58]) rest () :=
  .bind (hb.reads_peekToken (by decide)) (reads_skip 58)

section Step
variable {fuel : Nat} {name : String} {lead key body tail : List UInt8} {after : List String × α}

theorem memberBytes_append :
    memberBytes key blanks body ++ tail = [34] ++ ((key ++ [34]) ++ ((blanks ++ [58]) ++ (body ++ tail))) := by
  simp [memberBytes]

private theorem length_tail_lt (h : (lead ++ (memberBytes key blanks body ++ tail)).length < fuel + 1) :
    tail.length < fuel := by
  simp only [memberBytes, List.length_append, List.length_cons] at h
  omega

theorem reads_readFields_known {reader : Reader α} {value' : α} (hlead : Separator first lead)
    (hkey : Spells name.toList key) (hb : Blank blanks) (hfield : field name value = some reader)
    (hseen : name ∉ seen) (hbody : Reads reader body (tail ++ rest) value')
    (htail : Reads (readFields field fuel false (name :: seen) value') tail rest after) :
    Reads (readFields field (fuel + 1) first seen value) (lead ++ (memberBytes key blanks body ++ tail)) rest
      after := by
  rw [memberBytes_append]
  refine .bind hlead.reads_hasKey (.bind (reads_skip 34) (.bind (reads_readString hkey) ?_))
  simp only [hfield, List.contains_iff_mem, hseen, if_false]
  exact .bind hb.reads_readColon (.bind hbody htail)

theorem reads_readFields_unknown (hlead : Separator first lead) (hkey : Spells name.toList key) (hb : Blank blanks)
    (hfield : field name value = none) (hbody : Reads skipValue body (tail ++ rest) ())
    (htail : Reads (readFields field fuel false seen value) tail rest after) :
    Reads (readFields field (fuel + 1) first seen value) (lead ++ (memberBytes key blanks body ++ tail)) rest
      after := by
  rw [memberBytes_append]
  refine .bind hlead.reads_hasKey (.bind (reads_skip 34) (.bind (reads_readString hkey) ?_))
  simp only [hfield]
  exact .bind hb.reads_readColon (.bind hbody htail)

end Step

theorem Members.reads_readFields (h : Members field first seen value bytes result) {fuel : Nat}
    (hfuel : bytes.length < fuel) :
    ∃ seen', Reads (readFields field fuel first seen value) bytes (125 :: rest) (seen', result) := by
  induction h generalizing fuel with
  | @done _ seen value _ hb =>
    obtain ⟨fuel, rfl⟩ := Nat.exists_eq_add_of_lt hfuel
    exact ⟨seen, .bind_nil hb.reads_hasKey (.pure (seen, value))⟩
  | known hlead hkey hb hfield hseen hbody htail ih =>
    -- A member takes more than one byte, so that the fuel for the others is enough.
    obtain ⟨fuel, rfl⟩ := Nat.exists_eq_add_one_of_ne_zero (Nat.ne_zero_of_lt hfuel)
    obtain ⟨seen', htail⟩ := ih (length_tail_lt hfuel)
    exact ⟨seen', reads_readFields_known hlead hkey hb hfield hseen (hbody rest) htail⟩
  | unknown hlead hkey hb hfield hbody htail ih =>
    obtain ⟨fuel, rfl⟩ := Nat.exists_eq_add_one_of_ne_zero (Nat.ne_zero_of_lt hfuel)
    obtain ⟨seen', htail⟩ := ih (length_tail_lt hfuel)
    exact ⟨seen', reads_readFields_unknown hlead hkey hb hfield (hbody rest) htail⟩

theorem Members.reads_fieldsOf_bind {β : Type} {next : List String × α → Reader β} {b : β}
    (h : Members field true [] value bytes result)
    (hnext : ∀ seen, Reads (next (seen, result)) [] (125 :: rest) b) :
    Reads (fieldsOf value field >>= next) bytes (125 :: rest) b := by
  have hfuel : bytes.length < (bytes ++ 125 :: rest).length + 1 := by
    rw [List.length_append]
    omega
  obtain ⟨seen, hread⟩ : ∃ seen, Reads (readFields field ((bytes ++ 125 :: rest).length + 1) true [] value) bytes
      (125 :: rest) (seen, result) := h.reads_readFields hfuel
  exact .bind_nil (.looking reads_remaining hread) (hnext seen)

theorem Members.reads_snd_fieldsOf (h : Members field true [] value bytes result) :
    Reads (Prod.snd <$> fieldsOf value field) bytes (125 :: rest) result :=
  h.reads_fieldsOf_bind fun _ => .pure result

theorem Reads.thenAlways {reader : Reader α} {finish : Reader Unit} {back : List UInt8}
    (h : Reads reader bytes (back ++ rest) a) (hfinish : Reads finish back rest ()) :
    Reads (thenAlways reader finish) (bytes ++ back) rest a := by
  refine .bind (h.map _).tryCatch ?_
  exact .bind_nil hfinish (.pure a)

/-- A section that is an object. -/
theorem reads_readSection (hb : Blank blanks) {expected : Expected} {inArray inObject : Reader α}
    (h : Reads inObject bytes (125 :: rest) a) :
    Reads (readSection expected inArray inObject) (blanks ++ 123 :: (bytes ++ [125])) rest a := by
  refine .located (.bind (hb.reads_peekValue (by decide)) (.taking (reads_skip 123) ?_))
  refine .thenAlways h (.looking (Blank.nil.reads_peekToken (by decide)) (reads_skip 125))

/-- A text is parsed if nothing but blanks comes after what is read. -/
theorem Reads.parse {reader : Reader α} {text : String} (h : Reads reader bytes blanks a) (hb : Blank blanks)
    (ht : text.toUTF8.data.toList = bytes ++ blanks) : parse reader text = .ok a := by
  have hend : Reads peekToken blanks [] none := reads_peekToken hb (by simp)
  rw [← List.append_nil blanks] at h
  unfold Json.parse
  extract_lets whole
  have hread : Reads whole (bytes ++ blanks) [] a := h.bind (hend.bind_nil (.pure a))
  have hwhole := hread ⟨text.toUTF8, 0⟩ (by rw [List.append_nil]; exact ht)
  split
  · next heq =>
    have := hwhole.symm.trans heq
    cases this
    rfl
  · next heq =>
    have := hwhole.symm.trans heq
    cases this

end Objects

end ScriptHost.Config.Json
