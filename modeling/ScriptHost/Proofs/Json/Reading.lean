import ScriptHost.Config.Json.Cursor
/-! What the readers of a JSON text do with the bytes in front of them. Reading is stated about the bytes that
are left, and not about the text and the index into it. -/
namespace ScriptHost.Config.Json

namespace Cursor

/-- The bytes not yet read. -/
def rest (c : Cursor) : List UInt8 := c.text.data.toList.drop c.index

/-- The place some bytes further on. -/
def advance (c : Cursor) (n : Nat) : Cursor := { c with index := c.index + n }

variable (c : Cursor)

@[simp] theorem advance_advance (m n : Nat) : (c.advance m).advance n = c.advance (m + n) := by
  simp [advance, Nat.add_assoc]

@[simp] theorem rest_advance (n : Nat) : (c.advance n).rest = c.rest.drop n := by
  simp [rest, advance]

theorem length_rest : c.text.size - c.index = c.rest.length := by
  simp [rest]

theorem getElem?_rest (i : Nat) : c.rest[i]? = c.text[c.index + i]? := by
  rw [rest, List.getElem?_drop, Array.getElem?_toList]
  rfl

theorem head?_rest : c.rest.head? = c.text[c.index]? := by
  rw [List.head?_eq_getElem?, getElem?_rest, Nat.add_zero]

theorem size_of_rest {b : UInt8} {bs : List UInt8} (hc : c.rest = b :: bs) :
    c.text.size - c.index = c.text.size - (c.index + 1) + 1 := by
  have hl := c.length_rest
  rw [hc, List.length_cons] at hl
  omega

theorem extract_succ {b : UInt8} {bs : List UInt8} (hc : c.rest = b :: bs) (n : Nat) :
    c.text.extract c.index (c.index + (n + 1)) =
      [b].toByteArray ++ c.text.extract (c.index + 1) (c.index + 1 + n) := by
  have hlt : c.index + 1 ≤ c.text.size := by
    have := c.size_of_rest hc
    omega
  have hb : c.text[c.index] = b := by
    have hhead := c.head?_rest
    rw [hc, List.head?_cons, getElem?_pos c.text c.index hlt] at hhead
    exact (Option.some.inj hhead).symm
  rw [ByteArray.extract_eq_extract_append_extract (c.index + 1) (by omega) (by omega),
    ByteArray.extract_add_one hlt, hb, Nat.add_right_comm, Nat.add_assoc]

end Cursor

/-- Where `bytes` are followed by `rest`, the reader takes just these bytes and returns `a`. -/
def Reads {α : Type} (reader : Reader α) (bytes rest : List UInt8) (a : α) : Prop :=
  ∀ c : Cursor, c.rest = bytes ++ rest → reader.run.run c = (.ok a, c.advance bytes.length)

variable {α β : Type} {bytes rest : List UInt8} {a : α}

theorem run_bind (reader : Reader α) (next : α → Reader β) (c : Cursor) :
    (reader >>= next).run.run c = match reader.run.run c with
      | (.ok a, c') => (next a).run.run c'
      | (.error failure, c') => (.error failure, c') := by
  simp only [ExceptT.run, StateT.run, bind, ExceptT.bind, ExceptT.mk, StateT.bind, ExceptT.bindCont]
  cases reader c with
  | mk result c' => cases result <;> rfl

theorem run_get_bind (next : Cursor → Reader α) (c : Cursor) :
    (get >>= next).run.run c = (next c).run.run c := rfl

theorem run_skipWhile (p : UInt8 → Bool) (c : Cursor) :
    let n := runLength p c.text (c.text.size - c.index) c.index
    (skipWhile p).run.run c = (.ok n, c.advance n) := rfl

theorem Reads.pure (a : α) : Reads (Pure.pure a) [] rest a := fun _ _ => rfl

theorem Reads.bind {reader : Reader α} {next : α → Reader β} {front back : List UInt8} {b : β}
    (hfront : Reads reader front (back ++ rest) a) (hback : Reads (next a) back rest b) :
    Reads (reader >>= next) (front ++ back) rest b := by
  intro c hc
  rw [run_bind, hfront c (by rw [hc, List.append_assoc])]
  have hnext := hback (c.advance front.length) (by rw [Cursor.rest_advance, hc, List.append_assoc, List.drop_left])
  rwa [Cursor.advance_advance, ← List.length_append] at hnext

/-- A reader that takes nothing leaves all to what follows. -/
theorem Reads.looking {reader : Reader α} {next : α → Reader β} {b : β} (hlook : Reads reader [] (bytes ++ rest) a)
    (hnext : Reads (next a) bytes rest b) : Reads (reader >>= next) bytes rest b :=
  hlook.bind hnext

theorem Reads.taking {reader : Reader α} {next : α → Reader β} {x : UInt8} {b : β}
    (htake : Reads reader [x] (bytes ++ rest) a) (hnext : Reads (next a) bytes rest b) :
    Reads (reader >>= next) (x :: bytes) rest b :=
  htake.bind hnext

theorem Reads.bind_nil {reader : Reader α} {next : α → Reader β} {b : β} (hfront : Reads reader bytes rest a)
    (hback : Reads (next a) [] rest b) : Reads (reader >>= next) bytes rest b := by
  have h := hfront.bind hback
  rwa [List.append_nil] at h

theorem Reads.map {reader : Reader α} (f : α → β) (h : Reads reader bytes rest a) :
    Reads (f <$> reader) bytes rest (f a) :=
  h.bind_nil (.pure (f a))

theorem reads_get_bind {next : Cursor → Reader α} (h : ∀ c, c.rest = bytes ++ rest → Reads (next c) bytes rest a) :
    Reads (get >>= next) bytes rest a :=
  fun c hc => h c hc c hc

/-- How failures are handled makes no difference where there are none. -/
theorem Reads.tryCatch {reader : Reader α} {handle : Failure → Reader α} (h : Reads reader bytes rest a) :
    Reads (MonadExcept.tryCatch reader handle) bytes rest a := by
  intro c hc
  have hc := h c hc
  simp only [MonadExcept.tryCatch, tryCatchThe, MonadExceptOf.tryCatch, ExceptT.tryCatch, ExceptT.mk, ExceptT.run,
    StateT.run, StateT.bind, Bind.bind] at hc ⊢
  rw [hc]
  rfl

theorem Reads.located {reader : Reader α} (h : Reads reader bytes rest a) : Reads (located reader) bytes rest a :=
  h.tryCatch

theorem reads_peek : Reads peek [] rest rest.head? := by
  intro c hc
  have hhead := c.head?_rest
  rw [hc, List.nil_append] at hhead
  exact congrArg (fun b => (Except.ok b, c)) hhead.symm

theorem reads_skip (b : UInt8) : Reads skip [b] rest () := fun _ _ => rfl

theorem reads_next (b : UInt8) : Reads next [b] rest (some b) :=
  .looking reads_peek (.bind_nil (reads_skip b) (.pure (some b)))

theorem reads_remaining : Reads remaining [] rest rest.length := by
  intro c hc
  have hl := c.length_rest
  rw [hc, List.nil_append] at hl
  exact congrArg (fun n => (Except.ok n, c)) hl

section SkipWhile
variable {p : UInt8 → Bool} {c : Cursor}

theorem runLength_zero (hr : ∀ b ∈ c.rest.head?, p b = false) (limit : Nat) :
    runLength p c.text limit c.index = 0 := by
  cases limit with
  | zero => rfl
  | succ limit =>
    rw [runLength, ← c.head?_rest]
    cases h : c.rest.head? with
    | none => rfl
    | some b => simp [hr b h]

theorem runLength_succ {b : UInt8} {bs : List UInt8} (hb : p b) (hc : c.rest = b :: bs) (limit : Nat) :
    runLength p c.text (limit + 1) c.index = runLength p c.text limit (c.index + 1) + 1 := by
  rw [runLength, ← c.head?_rest, hc, List.head?_cons]
  exact if_pos hb

private theorem runLength_eq (hp : ∀ b ∈ bytes, p b) (hr : ∀ b ∈ rest.head?, p b = false)
    (hc : c.rest = bytes ++ rest) {limit : Nat} (hl : bytes.length ≤ limit) :
    runLength p c.text limit c.index = bytes.length := by
  induction bytes generalizing c limit with
  | nil => exact runLength_zero (by rwa [hc]) limit
  | cons b bytes ih =>
    obtain ⟨hb, hp⟩ := List.forall_mem_cons.mp hp
    obtain ⟨limit, rfl⟩ := Nat.exists_eq_add_of_le' (Nat.le_of_add_left_le hl)
    rw [runLength_succ hb hc, List.length_cons]
    have hnext := ih hp (c := c.advance 1) (by rw [Cursor.rest_advance, hc]; rfl) (Nat.le_of_succ_le_succ hl)
    exact congrArg (· + 1) hnext

theorem reads_skipWhile (hp : ∀ b ∈ bytes, p b) (hr : ∀ b ∈ rest.head?, p b = false) :
    Reads (skipWhile p) bytes rest bytes.length := by
  intro c hc
  have hrun : runLength p c.text (c.text.size - c.index) c.index = bytes.length :=
    runLength_eq hp hr hc (by simp [c.length_rest, hc])
  exact congrArg (fun n => (Except.ok n, c.advance n)) hrun

end SkipWhile

theorem reads_peekToken {blanks : List UInt8} (hb : ∀ b ∈ blanks, isBlank b)
    (hr : ∀ b ∈ rest.head?, isBlank b = false) : Reads peekToken blanks rest rest.head? :=
  .bind_nil (reads_skipWhile hb hr) reads_peek

theorem reads_readWord (word : List UInt8) : Reads (readWord word) word rest () := by
  induction word with
  | nil => exact .pure ()
  | cons b word ih =>
    refine .taking (reads_next b) ?_
    simp only [beq_self_eq_true, if_true]
    exact ih

end ScriptHost.Config.Json
