import ScriptHost.Proofs.Json.Object
/-! Values of any kind. Where a value is not wanted, exactly the bytes that make it up are skipped, however deep it
goes. -/
namespace ScriptHost.Config.Json

/-- What may come right after a value: a blank, a comma or a closing bracket, or nothing at all. -/
def EndsValue (rest : List UInt8) : Prop := ∀ b ∈ rest.head?, isBlank b ∨ b ∈ [44, 93, 125]

variable {bytes rest : List UInt8}

/-- What comes after a value is none of the bytes that would go on with a number. -/
theorem EndsValue.head? (h : EndsValue rest) :
    rest.head? = none ∨ ∃ b ∈ [32, 10, 9, 13, 44, 93, 125], rest.head? = some b := by
  cases hb : rest.head? with
  | none => exact .inl rfl
  | some b =>
    refine .inr ⟨b, ?_, rfl⟩
    have hb := h b hb
    simpa only [isBlank, Bool.or_eq_true, beq_iff_eq, List.mem_cons, List.not_mem_nil, or_false, or_assoc] using hb

theorem EndsValue.head?_isDigit (h : EndsValue rest) : ∀ b ∈ rest.head?, isDigit b = false := by
  have hnone : ∀ b ∈ ([32, 10, 9, 13, 44, 93, 125] : List UInt8), isDigit b = false := by simp [isDigit]
  intro b hb
  obtain hn | ⟨b', hmem, hb'⟩ := h.head?
  · rw [hn] at hb
    cases hb
  · rw [hb'] at hb
    cases hb
    exact hnone _ hmem

section Numbers

def Digits (bytes : List UInt8) : Prop := bytes ≠ [] ∧ ∀ b ∈ bytes, isDigit b

/-- What stands before the point of a number. -/
inductive Whole : List UInt8 → Prop where
  | zero : Whole [48]
  | digits {b : UInt8} {bytes : List UInt8} (hne : b ≠ 48) (hb : isDigit b) (hbytes : ∀ b ∈ bytes, isDigit b) :
      Whole (b :: bytes)

inductive Exponent : List UInt8 → Prop where
  | absent : Exponent []
  | letter {e : UInt8} {sign digits : List UInt8} (he : e = 101 ∨ e = 69) (hsign : sign ∈ [[], [43], [45]])
      (hdigits : Digits digits) : Exponent (e :: (sign ++ digits))

inductive Fraction : List UInt8 → Prop where
  | absent : Fraction []
  | point {digits : List UInt8} (hdigits : Digits digits) : Fraction (46 :: digits)

/-- The bytes of a number after its sign. -/
inductive Unsigned : List UInt8 → Prop where
  | mk {whole fraction exponent : List UInt8} (hwhole : Whole whole) (hfraction : Fraction fraction)
      (hexponent : Exponent exponent) : Unsigned (whole ++ (fraction ++ exponent))

theorem Digits.reads_skipWhile (h : Digits bytes) (hrest : ∀ b ∈ rest.head?, isDigit b = false) :
    Reads (skipWhile isDigit) bytes rest bytes.length :=
  Json.reads_skipWhile h.2 hrest

theorem reads_skipExponent {e : UInt8} {sign digits : List UInt8} (hsign : sign ∈ [[], [43], [45]])
    (hdigits : Digits digits) (hrest : ∀ b ∈ rest.head?, isDigit b = false) :
    Reads skipExponent (e :: (sign ++ digits)) rest () := by
  obtain ⟨hne, hdigits⟩ := hdigits
  obtain ⟨d, digits, rfl⟩ := List.exists_cons_of_ne_nil hne
  obtain ⟨hd, hdigits⟩ := List.forall_mem_cons.mp hdigits
  have hdigit : Reads (if isDigit d then do let _ ← skipWhile isDigit else failHere .invalidNumber) digits rest () := by
    rw [if_pos hd]
    exact .bind_nil (reads_skipWhile hdigits hrest) (.pure ())
  refine .taking (reads_skip e) ?_
  simp only [List.mem_cons, List.not_mem_nil, or_false] at hsign
  obtain rfl | rfl | rfl := hsign
  · refine .looking reads_peek ?_
    simp only [List.nil_append, List.cons_append, List.head?_cons]
    split
    · next h =>
      cases h
      cases hd
    · next h =>
      cases h
      cases hd
    · exact .taking (reads_next d) hdigit
  · exact .looking reads_peek (.taking (reads_skip 43) (.taking (reads_next d) hdigit))
  · exact .looking reads_peek (.taking (reads_skip 45) (.taking (reads_next d) hdigit))

/-- A look at what comes after a value leads to nothing, if it may come after a value. -/
theorem EndsValue.reads_peek (h : EndsValue rest) {next : Option UInt8 → Reader Unit} (hnone : next none = pure ())
    (hsome : ∀ b ∈ ([32, 10, 9, 13, 44, 93, 125] : List UInt8), next (some b) = pure ()) :
    Reads (peek >>= next) [] rest () := by
  refine .looking Json.reads_peek ?_
  obtain hn | ⟨b, hmem, hb⟩ := h.head?
  · rw [List.nil_append, hn, hnone]
    exact .pure ()
  · rw [List.nil_append, hb, hsome b hmem]
    exact .pure ()

theorem Exponent.reads_skipExponent (h : Exponent bytes) (hrest : EndsValue rest) :
    Reads (peek >>= fun | some 101 | some 69 => skipExponent | _ => pure ()) bytes rest () := by
  cases h with
  | absent => exact hrest.reads_peek rfl (by simp)
  | letter he hsign hdigits =>
    have hskip {e : UInt8} := Json.reads_skipExponent (e := e) hsign hdigits hrest.head?_isDigit
    obtain rfl | rfl := he <;> exact .looking reads_peek hskip

/-- Digits end before an exponent. -/
theorem Exponent.head?_isDigit (h : Exponent bytes) (hrest : EndsValue rest) :
    ∀ b ∈ (bytes ++ rest).head?, isDigit b = false := by
  cases h with
  | absent => exact hrest.head?_isDigit
  | letter he _ _ =>
    intro b hb
    cases hb
    obtain rfl | rfl := he <;> rfl

/-- Digits end before a fraction. -/
theorem Fraction.head?_isDigit {exponent : List UInt8} (h : Fraction bytes) (hexponent : Exponent exponent)
    (hrest : EndsValue rest) : ∀ b ∈ (bytes ++ (exponent ++ rest)).head?, isDigit b = false := by
  cases h with
  | absent => exact hexponent.head?_isDigit hrest
  | point _ =>
    intro b hb
    cases hb
    rfl

/-- What follows the digits before the point. -/
theorem reads_afterWhole {fraction exponent : List UInt8} (hfraction : Fraction fraction)
    (hexponent : Exponent exponent) (hrest : EndsValue rest) :
    Reads (peek >>= fun
      | some 46 => do
        skip
        let n ← skipWhile isDigit
        if n == 0 then failNext .invalidNumber
        match ← peek with
        | some 101 | some 69 => skipExponent
        | _ => pure ()
      | some 101 | some 69 => skipExponent
      | _ => pure ()) (fraction ++ exponent) rest () := by
  cases hfraction with
  | absent =>
    cases hexponent with
    | absent => exact hrest.reads_peek rfl (by simp)
    | letter he hsign hdigits =>
      have hskip {e : UInt8} := Json.reads_skipExponent (e := e) hsign hdigits hrest.head?_isDigit
      obtain rfl | rfl := he <;> exact .looking reads_peek hskip
  | @point digits hdigits =>
    refine .looking reads_peek (.taking (reads_skip 46) ?_)
    refine .bind (hdigits.reads_skipWhile (hexponent.head?_isDigit hrest)) ?_
    have hlength : (digits.length == 0) = false := by simpa using hdigits.1
    rw [hlength]
    exact hexponent.reads_skipExponent hrest

theorem Unsigned.exists_eq_cons (h : Unsigned bytes) : ∃ b digits, bytes = b :: digits ∧ isDigit b := by
  obtain ⟨hwhole, -, -⟩ := h
  cases hwhole with
  | zero => exact ⟨48, _, rfl, rfl⟩
  | digits _ hb _ => exact ⟨_, _, rfl, hb⟩

theorem isBlank_of_isDigit {b : UInt8} (hb : isDigit b) : isBlank b = false := by
  rw [← Bool.not_eq_true]
  intro hblank
  simp only [isBlank, Bool.or_eq_true, beq_iff_eq] at hblank
  obtain ((rfl | rfl) | rfl) | rfl := hblank <;> exact absurd hb (by decide)

theorem Unsigned.reads_skipNumber (h : Unsigned bytes) (hrest : EndsValue rest) :
    Reads skipNumber bytes rest () := by
  obtain ⟨hwhole, hfraction, hexponent⟩ := h
  have hafter := reads_afterWhole hfraction hexponent hrest
  have hdigit := hfraction.head?_isDigit hexponent hrest
  rw [← List.append_assoc] at hdigit
  cases hwhole with
  | zero =>
    refine .taking (reads_next 48) (.looking reads_peek ?_)
    split
    · next d hd =>
      rw [hdigit d hd]
      exact hafter
    · exact hafter
  | digits hne hb hbytes =>
    refine .taking (reads_next _) ?_
    split
    · next heq =>
      cases heq
      exact absurd rfl hne
    · next heq =>
      cases heq
      rw [if_pos hb]
      exact .bind (reads_skipWhile hbytes hdigit) hafter
    · next heq => cases heq

end Numbers

section Strings

/-- The bytes between the quotes of a string. Escapes for code points need not make characters. -/
inductive Quoted : List UInt8 → Prop where
  | nil : Quoted []
  | plain {b : UInt8} {bytes : List UInt8} (hb : isPlain b) (hbytes : Quoted bytes) : Quoted (b :: bytes)
  | letter {e : UInt8} {bytes : List UInt8} (he : (simpleEscape? e).isSome) (hbytes : Quoted bytes) :
      Quoted (92 :: e :: bytes)
  | code {w x y z : UInt8} {bytes : List UInt8} (hn : (codeUnit? w x y z).isSome) (hbytes : Quoted bytes) :
      Quoted (92 :: 117 :: w :: x :: y :: z :: bytes)

variable {fuel : Nat}

/-- A byte that stands for itself is skipped as if it were one of the bytes before. -/
theorem reads_skipStringFrom_plain {b : UInt8} (hb : isPlain b)
    (h : Reads (skipStringFrom (fuel + 1)) bytes rest ()) :
    Reads (skipStringFrom (fuel + 1)) (b :: bytes) rest () := by
  intro c hc
  have hrun := runLength_succ hb hc (c.text.size - (c.index + 1))
  rw [← c.size_of_rest hc] at hrun
  have hnext := h (c.advance 1) (by rw [Cursor.rest_advance, hc]; rfl)
  rw [Cursor.advance_advance, Nat.add_comm 1, ← List.length_cons (a := b)] at hnext
  rw [← hnext, skipStringFrom, run_bind, run_bind, run_skipWhile, run_skipWhile, hrun, Cursor.advance_advance,
    Nat.add_comm 1]
  rfl

/-- At a byte that does not stand for itself it shows how the string goes on. -/
theorem reads_skipStringFrom_look {b : UInt8} (hb : isPlain b = false) {next : Option UInt8 → Reader Unit}
    (h : Reads (next (some b)) (b :: bytes) rest ()) :
    Reads (do let _ ← skipWhile isPlain; next (← peek)) (b :: bytes) rest () := by
  refine .looking (reads_skipWhile (List.forall_mem_nil _) ?_) (.looking reads_peek h)
  rintro _ ⟨⟩
  exact hb

theorem Quoted.reads_skipStringFrom (h : Quoted bytes) (hfuel : bytes.length < fuel) :
    Reads (skipStringFrom fuel) (bytes ++ [34]) rest () := by
  induction h generalizing fuel with
  | nil =>
    obtain ⟨fuel, rfl⟩ := Nat.exists_eq_add_of_lt hfuel
    exact reads_skipStringFrom_look (by decide) (reads_skip 34)
  | plain hb _ ih =>
    have hlt := Nat.lt_of_succ_lt hfuel
    obtain ⟨fuel, rfl⟩ := Nat.exists_eq_add_one_of_ne_zero (Nat.ne_zero_of_lt hfuel)
    exact reads_skipStringFrom_plain hb (ih hlt)
  | letter he _ ih =>
    obtain ⟨fuel, rfl⟩ := Nat.exists_eq_add_one_of_ne_zero (Nat.ne_zero_of_lt hfuel)
    have hrest := @ih fuel (by simp only [List.length_cons] at hfuel; omega)
    refine reads_skipStringFrom_look (by decide) (.taking (reads_skip 92) (.taking (reads_next _) ?_))
    split
    · next heq => cases heq
    · next heq =>
      cases heq
      cases he
    · next heq =>
      cases heq
      rw [if_pos he]
      exact hrest
  | code hn _ ih =>
    obtain ⟨fuel, rfl⟩ := Nat.exists_eq_add_one_of_ne_zero (Nat.ne_zero_of_lt hfuel)
    obtain ⟨n, hn⟩ := Option.isSome_iff_exists.mp hn
    have hrest := @ih fuel (by simp only [List.length_cons] at hfuel; omega)
    refine reads_skipStringFrom_look (by decide) (.taking (reads_skip 92) (.taking (reads_next _) ?_))
    have hcode : Reads (readHexEscape >>= fun _ => skipStringFrom fuel) _ rest () :=
      (reads_readHexEscape hn).bind hrest
    exact hcode

theorem Quoted.reads_skipString (h : Quoted bytes) : Reads skipString (bytes ++ [34]) rest () := by
  refine .looking reads_remaining (h.reads_skipStringFrom ?_)
  simp only [List.length_append]
  omega

end Strings

/-- The byte that opens a bracket. -/
def Bracket.opening : Bracket → UInt8
  | .list => 91
  | .object => 123

/-- The byte that closes a bracket. -/
def Bracket.closing : Bracket → UInt8
  | .list => 93
  | .object => 125

/-- The parts of a value: itself, and what is in its brackets from a first or a later item on. -/
inductive Part where
  | value
  | inside (bracket : Bracket) (first : Bool)

/-- The bytes of a part of a value. Blanks before a closing bracket belong to what is in the brackets. -/
inductive Forms : Part → List UInt8 → Prop where
  | word {bytes : List UInt8}
      (h : bytes ∈ [[110, 117, 108, 108], [116, 114, 117, 101], [102, 97, 108, 115, 101]]) : Forms .value bytes
  | number {bytes : List UInt8} (h : Unsigned bytes) : Forms .value bytes
  | negative {bytes : List UInt8} (h : Unsigned bytes) : Forms .value (45 :: bytes)
  | string {bytes : List UInt8} (h : Quoted bytes) : Forms .value (34 :: (bytes ++ [34]))
  | bracketed {bracket : Bracket} {bytes : List UInt8} (h : Forms (.inside bracket true) bytes) :
      Forms .value (bracket.opening :: (bytes ++ [bracket.closing]))
  | done {bracket : Bracket} {first : Bool} {blanks : List UInt8} (hb : Blank blanks) :
      Forms (.inside bracket first) blanks
  | item {first : Bool} {lead body tail : List UInt8} (hlead : Separator first lead) (hbody : Forms .value body)
      (htail : Forms (.inside .list false) tail) : Forms (.inside .list first) (lead ++ (body ++ tail))
  | member {first : Bool} {lead key before after body tail : List UInt8} (hlead : Separator first lead)
      (hkey : Quoted key) (hbefore : Blank before) (hafter : Blank after) (hbody : Forms .value body)
      (htail : Forms (.inside .object false) tail) :
      Forms (.inside .object first) (lead ++ (memberBytes key before (after ++ body) ++ tail))

/-- The bytes of a value of any kind. -/
def Value (bytes : List UInt8) : Prop := Forms .value bytes

/-- How skipping goes on when some brackets have been left. -/
def resume (fuel : Nat) (left : List Bracket) : Reader Unit := do
  match left with
  | [] => return ()
  | .list :: _ => skipWithin fuel left
  | .object :: _ =>
    match ← peekToken with
    | some 34 => skip
    | some _ => failNext .keyNotString
    | none => failNext .endInObject
    skipString
    readColon
    skipWithin fuel left

/-- What comes in some brackets, after a value or at their beginning, and then outside of them is skipped, given as
much fuel as there are bytes. -/
def Resumes (afterValue : Bool) (brackets : List Bracket) (tail rest : List UInt8) : Prop :=
  ∀ n fuel, tail.length < n → tail.length < fuel →
    Reads (leaveBrackets n afterValue brackets >>= resume fuel) tail rest ()

section Skipping
variable {fuel : Nat} {brackets : List Bracket} {tail blanks : List UInt8}

theorem reads_skipWithin_word (hb : Blank blanks) (hfuel : tail.length < fuel)
    (h : bytes ∈ [[110, 117, 108, 108], [116, 114, 117, 101], [102, 97, 108, 115, 101]])
    (htail : Resumes true brackets tail rest) :
    Reads (skipWithin (fuel + 1) brackets) (blanks ++ (bytes ++ tail)) rest () := by
  have hnext {n : Nat} (hn : tail.length ≤ n) := htail (n + 1) fuel (Nat.lt_succ_of_le hn) hfuel
  refine .looking reads_remaining ?_
  simp only [List.mem_cons, List.not_mem_nil, or_false] at h
  obtain rfl | rfl | rfl := h
  · refine .bind (hb.reads_peekValue (by decide)) ?_
    exact .taking (reads_skip 110) (.bind (reads_readWord [117, 108, 108]) (hnext (by simp; omega)))
  · refine .bind (hb.reads_peekValue (by decide)) ?_
    exact .taking (reads_skip 116) (.bind (reads_readWord [114, 117, 101]) (hnext (by simp; omega)))
  · refine .bind (hb.reads_peekValue (by decide)) ?_
    exact .taking (reads_skip 102) (.bind (reads_readWord [97, 108, 115, 101]) (hnext (by simp; omega)))

theorem reads_skipWithin_negative (hb : Blank blanks) (hfuel : tail.length < fuel) (h : Unsigned bytes)
    (hends : EndsValue (tail ++ rest)) (htail : Resumes true brackets tail rest) :
    Reads (skipWithin (fuel + 1) brackets) (blanks ++ (45 :: bytes ++ tail)) rest () := by
  refine .looking reads_remaining (.bind (hb.reads_peekValue (by decide)) ?_)
  exact .taking (reads_skip 45) (.bind (h.reads_skipNumber hends) (htail _ fuel (by simp; omega) hfuel))

theorem reads_skipWithin_string (hb : Blank blanks) (hfuel : tail.length < fuel) (h : Quoted bytes)
    (htail : Resumes true brackets tail rest) :
    Reads (skipWithin (fuel + 1) brackets) (blanks ++ (34 :: (bytes ++ [34]) ++ tail)) rest () := by
  refine .looking reads_remaining (.bind (hb.reads_peekValue (by decide)) ?_)
  exact .taking (reads_skip 34) (.bind h.reads_skipString (htail _ fuel (by simp; omega) hfuel))

/-- A number without a sign shows its kind with its first digit. -/
theorem reads_skipWithin_number (hb : Blank blanks) (hfuel : tail.length < fuel) (h : Unsigned bytes)
    (hends : EndsValue (tail ++ rest)) (htail : Resumes true brackets tail rest) :
    Reads (skipWithin (fuel + 1) brackets) (blanks ++ (bytes ++ tail)) rest () := by
  obtain ⟨b, digits, rfl, hdigit⟩ := h.exists_eq_cons
  have hskip := h.reads_skipNumber hends
  refine .looking reads_remaining (.bind (hb.reads_peekValue (isBlank_of_isDigit hdigit)) ?_)
  split
  case h_8 =>
    rw [if_pos hdigit]
    exact .bind hskip (htail _ fuel (by simp; omega) hfuel)
  all_goals exact absurd hdigit (by decide)

theorem Reads.bind_bind {α β γ : Type} {reader : Reader α} {next : α → Reader β} {last : β → Reader γ} {c : γ}
    (h : Reads (reader >>= fun a => next a >>= last) bytes rest c) :
    Reads ((reader >>= next) >>= last) bytes rest c := by
  rwa [bind_assoc]

/-- Brackets that close leave those around them, in which a value has just ended. -/
theorem resumes_close (hb : Blank blanks) {afterValue : Bool} (bracket : Bracket)
    (htail : Resumes true brackets tail rest) :
    Resumes afterValue (bracket :: brackets) (blanks ++ bracket.closing :: tail) rest := by
  intro n fuel hn hfuel
  simp only [List.length_append, List.length_cons] at hn hfuel
  obtain ⟨n, rfl⟩ := Nat.exists_eq_add_one_of_ne_zero (Nat.ne_zero_of_lt hn)
  have hnext := htail n fuel (by omega) (by omega)
  refine .bind_bind ?_
  cases bracket with
  | list => exact .bind (hb.reads_peekToken (by decide)) (.bind_bind (.taking (reads_skip 93) hnext))
  | object => exact .bind (hb.reads_peekToken (by decide)) (.bind_bind (.taking (reads_skip 125) hnext))

/-- Of what stands before an item all is read but the blanks right before it. -/
theorem Separator.reads_leaveBrackets {first : Bool} {lead : List UInt8} (h : Separator first lead)
    (brackets : List Bracket) : ∃ front blanks, lead = front ++ blanks ∧ Blank blanks ∧
      ∀ n bracket b rest, isBlank b = false → b ≠ bracket.closing →
        Reads (leaveBrackets (n + 1) (!first) (bracket :: brackets)) front (blanks ++ b :: rest)
          (bracket :: brackets) := by
  cases h with
  | first hb =>
    refine ⟨lead, [], (List.append_nil _).symm, .nil, fun n bracket b rest hblank hclosing => ?_⟩
    refine .bind_nil (hb.reads_peekToken hblank) ?_
    split
    · next heq => cases heq
    · next heq => cases heq
    · next heq =>
      cases heq
      exact absurd rfl hclosing
    · next heq =>
      cases heq
      exact absurd rfl hclosing
    · exact .pure _
  | @later before after hbefore hafter =>
    refine ⟨before ++ [44], after, by simp, hafter, fun n bracket b rest _ _ => ?_⟩
    refine .bind (hbefore.reads_peekToken (by decide)) ?_
    cases bracket with
    | list => exact .bind_nil (reads_skip 44) (.pure _)
    | object => exact .bind_nil (reads_skip 44) (.pure _)

/-- The first byte of a value. -/
theorem Value.exists_eq_cons (h : Value bytes) :
    ∃ b bytes', bytes = b :: bytes' ∧ isBlank b = false ∧ b ≠ 93 ∧ b ≠ 125 := by
  have of_digit {b : UInt8} (hb : isDigit b) : isBlank b = false ∧ b ≠ 93 ∧ b ≠ 125 := by
    refine ⟨isBlank_of_isDigit hb, ?_, ?_⟩ <;> rintro rfl <;> exact absurd hb (by decide)
  cases h with
  | word h =>
    simp only [List.mem_cons, List.not_mem_nil, or_false] at h
    obtain rfl | rfl | rfl := h <;> exact ⟨_, _, rfl, by decide⟩
  | number h =>
    obtain ⟨b, digits, rfl, hb⟩ := h.exists_eq_cons
    exact ⟨b, digits, rfl, of_digit hb⟩
  | negative _ => exact ⟨_, _, rfl, by decide⟩
  | string _ => exact ⟨_, _, rfl, by decide⟩
  | @bracketed bracket _ _ => cases bracket <;> exact ⟨_, _, rfl, by decide⟩

theorem Blank.endsValue (hb : Blank blanks) {b : UInt8} (h : b ∈ [44, 93, 125]) :
    EndsValue (blanks ++ b :: rest) := by
  cases blanks with
  | nil =>
    rintro _ ⟨⟩
    exact .inr h
  | cons blank blanks =>
    rintro _ ⟨⟩
    exact .inl (hb blank List.mem_cons_self)

/-- What stands before a later item may come after a value. -/
theorem Separator.endsValue {lead : List UInt8} (h : Separator false lead) (rest : List UInt8) :
    EndsValue (lead ++ rest) := by
  cases h with
  | later hbefore _ =>
    rw [List.append_assoc]
    exact hbefore.endsValue (by decide)

/-- What comes after an item may come after a value. -/
theorem Forms.endsValue {bracket : Bracket} (h : Forms (.inside bracket false) tail) (rest : List UInt8) :
    EndsValue (tail ++ bracket.closing :: rest) := by
  cases h with
  | done hb => exact hb.endsValue (by cases bracket <;> decide)
  | item hlead _ _ =>
    rw [List.append_assoc]
    exact hlead.endsValue _
  | member hlead _ _ _ _ _ =>
    rw [List.append_assoc]
    exact hlead.endsValue _

/-- What it is to skip a part of a value, whatever comes after it. -/
def Skips (bytes : List UInt8) : Part → Prop
  | .value => ∀ {brackets : List Bracket} {tail rest blanks : List UInt8} {fuel : Nat}, EndsValue (tail ++ rest) →
      Resumes true brackets tail rest → Blank blanks → bytes.length + tail.length < fuel →
      Reads (skipWithin fuel brackets) (blanks ++ (bytes ++ tail)) rest ()
  | .inside bracket first => ∀ {brackets : List Bracket} {tail rest : List UInt8}, Resumes true brackets tail rest →
      Resumes (!first) (bracket :: brackets) (bytes ++ bracket.closing :: tail) rest

/-- Fuel for a value and what comes after it is enough for the value and then for what comes after it. -/
private theorem exists_fuel (h : Value bytes) (hfuel : bytes.length + tail.length < fuel) :
    ∃ fuel', fuel = fuel' + 1 ∧ tail.length < fuel' := by
  obtain ⟨b, bytes, rfl, -⟩ := h.exists_eq_cons
  rw [List.length_cons] at hfuel
  exact ⟨fuel - 1, by omega, by omega⟩

theorem skips_bracketed {bracket : Bracket} (h : Skips bytes (.inside bracket true)) :
    Skips (bracket.opening :: (bytes ++ [bracket.closing])) .value := by
  intro brackets tail rest blanks fuel _ htail hb hfuel
  have hinside := h htail
  simp only [List.length_cons, List.length_append, List.length_nil] at hfuel
  obtain ⟨fuel, rfl⟩ := Nat.exists_eq_add_one_of_ne_zero (Nat.ne_zero_of_lt hfuel)
  rw [List.cons_append, List.append_assoc, List.singleton_append]
  refine .looking reads_remaining ?_
  cases bracket with
  | list =>
    refine .bind (hb.reads_peekValue (by decide)) (.taking (reads_skip 91) (.looking (.pure _) ?_))
    exact hinside _ fuel (by simp; omega) (by simp; omega)
  | object =>
    refine .bind (hb.reads_peekValue (by decide)) (.taking (reads_skip 123) (.looking (.pure _) ?_))
    exact hinside _ fuel (by simp; omega) (by simp; omega)

theorem skips_item {first : Bool} {lead body : List UInt8} (hlead : Separator first lead) (hvalue : Value body)
    (hforms : Forms (.inside .list false) bytes) (hbody : Skips body .value)
    (hbytes : Skips bytes (.inside .list false)) :
    Skips (lead ++ (body ++ bytes)) (.inside .list first) := by
  intro brackets tail rest htail n fuel hn hfuel
  obtain ⟨b, body', heq, hblank, hlist, -⟩ := hvalue.exists_eq_cons
  obtain ⟨front, blanks, rfl, hb, hleave⟩ := hlead.reads_leaveBrackets brackets
  obtain ⟨n, rfl⟩ := Nat.exists_eq_add_one_of_ne_zero (Nat.ne_zero_of_lt hn)
  simp only [List.length_append, List.length_cons] at hfuel
  have hends : EndsValue (bytes ++ 93 :: tail ++ rest) := by
    rw [List.append_assoc]
    exact hforms.endsValue _
  have hleave : Reads (leaveBrackets (n + 1) (!first) (.list :: brackets)) front
      (blanks ++ (body ++ (bytes ++ 93 :: tail)) ++ rest) (.list :: brackets) := by
    rw [heq, List.append_assoc]
    exact hleave n .list b _ hblank hlist
  have hlength : body.length + (bytes ++ 93 :: tail).length < fuel := by
    simp only [List.length_append, List.length_cons]
    omega
  have hskip := hbody hends (hbytes htail) hb hlength
  have heq : front ++ blanks ++ (body ++ bytes) ++ 93 :: tail =
      front ++ (blanks ++ (body ++ (bytes ++ 93 :: tail))) := by simp only [List.append_assoc]
  change Reads _ (front ++ blanks ++ (body ++ bytes) ++ 93 :: tail) rest ()
  rw [heq]
  exact .bind hleave hskip

theorem skips_member {first : Bool} {lead key before after body : List UInt8} (hlead : Separator first lead)
    (hkey : Quoted key) (hbefore : Blank before) (hafter : Blank after)
    (hforms : Forms (.inside .object false) bytes) (hbody : Skips body .value)
    (hbytes : Skips bytes (.inside .object false)) :
    Skips (lead ++ (memberBytes key before (after ++ body) ++ bytes)) (.inside .object first) := by
  intro brackets tail rest htail n fuel hn hfuel
  obtain ⟨front, blanks, rfl, hb, hleave⟩ := hlead.reads_leaveBrackets brackets
  obtain ⟨n, rfl⟩ := Nat.exists_eq_add_one_of_ne_zero (Nat.ne_zero_of_lt hn)
  simp only [memberBytes, List.length_append, List.length_cons] at hfuel
  have hends : EndsValue (bytes ++ 125 :: tail ++ rest) := by
    rw [List.append_assoc]
    exact hforms.endsValue _
  have hlength : body.length + (bytes ++ 125 :: tail).length < fuel := by
    simp only [List.length_append, List.length_cons]
    omega
  have hskip := hbody hends (hbytes htail) hafter hlength
  have hresume : Reads (resume fuel (.object :: brackets))
      (blanks ++ ([34] ++ ((key ++ [34]) ++ ((before ++ [58]) ++ (after ++ (body ++ (bytes ++ 125 :: tail)))))))
      rest () :=
    .bind (hb.reads_peekToken (by decide)) <| .bind (reads_skip 34) <| .bind hkey.reads_skipString <|
      .bind hbefore.reads_readColon hskip
  have heq : front ++ blanks ++ (memberBytes key before (after ++ body) ++ bytes) ++ 125 :: tail =
      front ++ (blanks ++ ([34] ++ ((key ++ [34]) ++ ((before ++ [58]) ++
        (after ++ (body ++ (bytes ++ 125 :: tail))))))) := by
    simp only [memberBytes_append, List.append_assoc]
  change Reads _ (front ++ blanks ++ (memberBytes key before (after ++ body) ++ bytes) ++ 125 :: tail) rest ()
  rw [heq]
  refine .bind ?_ hresume
  rw [List.append_assoc]
  exact hleave n .object 34 _ (by decide) (by decide)

theorem Forms.skips {part : Part} (h : Forms part bytes) : Skips bytes part := by
  induction h with
  | word h =>
    intro brackets tail rest blanks fuel hends htail hb hfuel
    obtain ⟨fuel, rfl, hlt⟩ := exists_fuel (.word h) hfuel
    exact reads_skipWithin_word hb hlt h htail
  | number h =>
    intro brackets tail rest blanks fuel hends htail hb hfuel
    obtain ⟨fuel, rfl, hlt⟩ := exists_fuel (.number h) hfuel
    exact reads_skipWithin_number hb hlt h hends htail
  | negative h =>
    intro brackets tail rest blanks fuel hends htail hb hfuel
    obtain ⟨fuel, rfl, hlt⟩ := exists_fuel (.negative h) hfuel
    exact reads_skipWithin_negative hb hlt h hends htail
  | string h =>
    intro brackets tail rest blanks fuel hends htail hb hfuel
    obtain ⟨fuel, rfl, hlt⟩ := exists_fuel (.string h) hfuel
    exact reads_skipWithin_string hb hlt h htail
  | bracketed h ih => exact skips_bracketed ih
  | done hb => exact fun htail => resumes_close hb _ htail
  | item hlead hbody htail ihbody ihtail => exact skips_item hlead hbody htail ihbody ihtail
  | member hlead hkey hbefore hafter hbody htail ihbody ihtail =>
    exact skips_member hlead hkey hbefore hafter htail ihbody ihtail

theorem Value.reads_skipValue (h : Value bytes) {blanks : List UInt8} (hb : Blank blanks) (hends : EndsValue rest) :
    Reads skipValue (blanks ++ bytes) rest () := by
  have hend : Resumes true [] [] rest := by
    intro n fuel hn _
    obtain ⟨n, rfl⟩ := Nat.exists_eq_add_one_of_ne_zero (Nat.ne_zero_of_lt hn)
    exact .looking (.pure []) (.pure ())
  refine .looking reads_remaining ?_
  have hskip {fuel : Nat} (hfuel : bytes.length < fuel) : Reads (skipWithin fuel []) (blanks ++ bytes) rest () := by
    have hskip : Reads (skipWithin fuel []) (blanks ++ (bytes ++ [])) rest () := h.skips hends hend hb hfuel
    rwa [List.append_nil] at hskip
  exact hskip (by simp only [List.length_append]; omega)

end Skipping

end ScriptHost.Config.Json
