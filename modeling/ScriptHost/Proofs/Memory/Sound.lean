import ScriptHost.Proofs.Memory.Table
/-! Sound memories and what becomes of them. A panic is counted when a function of the host raises it; until it
reaches the host it is kept in memory, and it is kept there only once. -/
namespace ScriptHost.Lua
open Text (Bytes)

/-- Whether a failure is a panic that has not reached the host yet. -/
def Failure.isUnspent : Failure → Bool
  | .panic (some _) => true
  | _ => false

namespace World

/-- The number of panics that have not reached the host yet. -/
def unspent (w : World) : Nat := w.failures.countP (·.isUnspent)

/-- A memory in which all places that are named are in use. -/
structure Sound (w : World) : Prop where
  provided : Builtin.all.size ≤ w.functions.size
  globals : w.Has (Value.table w.globals)
  strings : w.Has (w.stringMetatable.map Value.table)
  tables : w.Has w.tables
  cells : w.Has w.cells

/-- What becomes of a memory while so many panics reach the host. All places stay, and panics come from
functions of the host only. -/
structure Becomes (w : World) (surfaced : Nat) (w' : World) : Prop where
  extends_ : w.Extends w'
  accounts : w'.unspent + surfaced + w.panics ≤ w.unspent + w'.panics
  sound : w'.Sound

/-- What becomes of a memory while no panic reaches the host. -/
abbrev Later (w w' : World) : Prop := w.Becomes 0 w'

variable {w w' : World}

theorem Sound.later (h : w.Sound) : w.Later w := ⟨.refl w, Nat.le_refl _, h⟩

theorem Becomes.trans {w₁ w₂ w₃ : World} {m n : Nat} (h₁ : w₁.Becomes m w₂) (h₂ : w₂.Becomes n w₃) :
    w₁.Becomes (m + n) w₃ := by
  refine ⟨h₁.extends_.trans h₂.extends_, ?_, h₂.sound⟩
  have := h₁.accounts
  have := h₂.accounts
  omega

theorem Later.becomes {w₁ w₂ w₃ : World} (h₁ : w₁.Later w₂) {n : Nat} (h₂ : w₂.Becomes n w₃) :
    w₁.Becomes n w₃ := by
  have := Becomes.trans h₁ h₂
  rwa [Nat.zero_add] at this

theorem Later.trans {w₁ w₂ w₃ : World} (h₁ : w₁.Later w₂) (h₂ : w₂.Later w₃) : w₁.Later w₃ :=
  h₁.becomes h₂

theorem Has.later {α : Type} [Referring α] {a : α} (ha : w.Has a) {n : Nat} (hw : w.Becomes n w') : w'.Has a :=
  ha.extend hw.extends_

/-- A change that leaves tables, functions, captured variables and failures alone. -/
structure Untouched (w w' : World) : Prop where
  tables : w'.tables = w.tables
  functions : w'.functions = w.functions
  cells : w'.cells = w.cells
  failures : w'.failures = w.failures
  panics : w'.panics = w.panics
  globals : w'.globals = w.globals
  stringMetatable : w'.stringMetatable = w.stringMetatable

theorem Sound.of_extends (h : w.Sound) (he : w.Extends w') (hg : w'.globals = w.globals)
    (hs : w'.stringMetatable = w.stringMetatable) (ht : w'.Has w'.tables) (hc : w'.Has w'.cells) : w'.Sound where
  provided := Nat.le_trans h.provided he.functions
  globals := hg ▸ h.globals.extend he
  strings := hs ▸ h.strings.extend he
  tables := ht
  cells := hc

theorem Sound.untouched (h : w.Sound) (hu : w.Untouched w') : w.Later w' := by
  have he : w.Extends w' :=
    ⟨by simp [hu.tables], by simp [hu.functions], by simp [hu.failures], by simp [HasSpent, hu.failures]⟩
  refine ⟨he, ?_, h.of_extends he hu.globals hu.stringMetatable ?_ ?_⟩
  · simp only [unspent, hu.failures, hu.panics, Nat.add_zero, Nat.le_refl]
  · rw [hu.tables]
    exact h.tables.extend he
  · rw [hu.cells]
    exact h.cells.extend he

theorem Sound.has_globals (h : w.Sound) : w.Has (Value.table w.globals) := h.globals

theorem Sound.has_builtin (h : w.Sound) (f : Builtin) : w.Has (Value.function f.place) :=
  (has_function _).mpr (Nat.lt_of_lt_of_le f.place_lt h.provided)

theorem Sound.has_tableAt (h : w.Sound) (place : Nat) : w.Has (w.table place) :=
  (h.tables.at? place).getD Table.has_empty

theorem Sound.has_metatable? (h : w.Sound) (v : Value) : w.Has ((w.metatable? v).map Value.table) := by
  cases v with
  | table place => exact (has_table_iff.mp (h.has_tableAt place)).2.2.1
  | string s => exact h.strings
  | _ => exact has_none

theorem Sound.has_handler (h : w.Sound) (v : Value) (event : String) : w.Has (w.handler v event) := by
  unfold handler
  split
  · split
    · exact h.has_builtin _
    · exact has_nil
  · split
    · exact Table.has_getName (h.has_tableAt _) event
    · exact has_nil

theorem Sound.modifyTable (h : w.Sound) (place : Nat) {change : Table → Table}
    (hc : ∀ t, w.Has t → w.Has (change t)) : w.Later (w.modifyTable place change) := by
  have he : w.Extends (w.modifyTable place change) :=
    ⟨by simp [World.modifyTable, changeAt], Nat.le_refl _, Nat.le_refl _, fun _ => id⟩
  refine ⟨he, Nat.le_refl _, h.of_extends he rfl rfl (fun t ht => ?_) (h.cells.extend he)⟩
  refine Has.extend ?_ he
  obtain ⟨i, hi, rfl⟩ := Array.mem_iff_getElem.mp ht
  have hi' : i < w.tables.size := by simpa [World.modifyTable, changeAt] using hi
  have hold : w.Has w.tables[i] := h.tables _ (Array.getElem_mem hi')
  simp only [World.modifyTable, changeAt, Array.getElem_modify]
  split
  · exact hc _ hold
  · exact hold

theorem Sound.addTable (h : w.Sound) {t : Table} (ht : w.Has t) :
    w.Later (w.addTable t).2 ∧ (w.addTable t).2.Has (Value.table (w.addTable t).1) := by
  have he : w.Extends (w.addTable t).2 := ⟨by simp [World.addTable], Nat.le_refl _, Nat.le_refl _, fun _ => id⟩
  refine ⟨⟨he, Nat.le_refl _, h.of_extends he rfl rfl ?_ (h.cells.extend he)⟩, ?_⟩
  · exact (h.tables.extend he).push (ht.extend he)
  · simp [World.addTable]

theorem Sound.addFunction (h : w.Sound) (f : FunctionObject) :
    w.Later (w.addFunction f).2 ∧ (w.addFunction f).2.Has (Value.function (w.addFunction f).1) := by
  have he : w.Extends (w.addFunction f).2 := ⟨Nat.le_refl _, by simp [World.addFunction], Nat.le_refl _, fun _ => id⟩
  refine ⟨⟨he, Nat.le_refl _, h.of_extends he rfl rfl (h.tables.extend he) (h.cells.extend he)⟩, ?_⟩
  simp [World.addFunction]

theorem Sound.putFunction (h : w.Sound) (place : Nat) (f : FunctionObject) :
    w.Later { w with functions := putAt w.functions place f } := by
  have he : w.Extends { w with functions := putAt w.functions place f } :=
    ⟨Nat.le_refl _, by simp [putAt], Nat.le_refl _, fun _ => id⟩
  exact ⟨he, Nat.le_refl _, h.of_extends he rfl rfl (h.tables.extend he) (h.cells.extend he)⟩

theorem Sound.addCell (h : w.Sound) {v : Value} (hv : w.Has v) : w.Later (w.addCell v).2 := by
  have he : w.Extends (w.addCell v).2 := ⟨Nat.le_refl _, Nat.le_refl _, Nat.le_refl _, fun _ => id⟩
  exact ⟨he, Nat.le_refl _, h.of_extends he rfl rfl (h.tables.extend he)
    ((h.cells.extend he).push (hv.extend he))⟩

theorem Sound.setCell (h : w.Sound) (cell : Nat) {v : Value} (hv : w.Has v) :
    w.Later (ScriptFrame.setCell w cell v) := by
  have he : w.Extends (ScriptFrame.setCell w cell v) := ⟨Nat.le_refl _, Nat.le_refl _, Nat.le_refl _, fun _ => id⟩
  exact ⟨he, Nat.le_refl _, h.of_extends he rfl rfl (h.tables.extend he)
    ((h.cells.extend he).putAt cell (hv.extend he))⟩

/-- The function of a chunk is new, with captured variables of its own. -/
theorem Sound.addChunk (h : w.Sound) (proto : Proto) {environment : Value} (he : w.Has environment) :
    w.Later (w.addChunk proto environment).2 ∧
      (w.addChunk proto environment).2.Has (Value.function (w.addChunk proto environment).1) := by
  let fresh := (Array.replicate proto.upvalues.size Value.nil).setIfInBounds 0 environment
  have hfresh : w.Has fresh := by
    refine Has.set! (fun v hv => ?_) 0 he
    rw [(Array.mem_replicate.mp hv).2]
    exact has_nil
  have hw : w.Later { w with cells := w.cells ++ fresh } := by
    have hx : w.Extends { w with cells := w.cells ++ fresh } :=
      ⟨Nat.le_refl _, Nat.le_refl _, Nat.le_refl _, fun _ => id⟩
    refine ⟨hx, Nat.le_refl _, h.of_extends hx rfl rfl (h.tables.extend hx) fun v hv => ?_⟩
    obtain hv | hv := Array.mem_append.mp hv
    · exact (h.cells v hv).extend hx
    · exact (hfresh v hv).extend hx
  have hadd := hw.sound.addFunction
    (.closure proto (Array.ofFn fun (i : Fin proto.upvalues.size) => w.cells.size + i))
  exact ⟨Later.trans hw hadd.1, hadd.2⟩

theorem extends_addFailure (w : World) (f : Failure) : w.Extends (w.addFailure f).2 := by
  refine ⟨Nat.le_refl _, Nat.le_refl _, by simp [addFailure], fun place hp => ?_⟩
  have hlt : place < w.failures.size := (Array.getElem?_eq_some_iff.mp hp).1
  show (w.failures.push f)[place]? = _
  rw [Array.getElem?_push_lt hlt, ← Array.getElem?_eq_getElem hlt, hp]

theorem Sound.sound_addFailure (h : w.Sound) (f : Failure) : (w.addFailure f).2.Sound :=
  have he := w.extends_addFailure f
  h.of_extends he rfl rfl (h.tables.extend he) (h.cells.extend he)

theorem has_addFailure (w : World) (f : Failure) :
    (w.addFailure f).2.Has (Value.failure (w.addFailure f).1) := by
  simp [addFailure]

theorem unspent_addFailure (w : World) (f : Failure) :
    (w.addFailure f).2.unspent = w.unspent + if f.isUnspent then 1 else 0 := by
  simp only [unspent, addFailure, Array.countP_push]

/-- An error of the host is new. It is no panic. -/
theorem Sound.addError (h : w.Sound) (e : ScriptError) :
    w.Later (w.addFailure (.error e)).2 ∧
      (w.addFailure (.error e)).2.Has (Value.failure (w.addFailure (.error e)).1) := by
  refine ⟨⟨w.extends_addFailure _, ?_, h.sound_addFailure _⟩, w.has_addFailure _⟩
  simp only [unspent_addFailure]
  exact Nat.le_refl _

/-- A panic that is counted may be kept, or reach the host. -/
theorem Sound.countPanic (h : w.Sound) : w.Becomes 1 { w with panics := w.panics + 1 } := by
  have he : w.Extends { w with panics := w.panics + 1 } := ⟨Nat.le_refl _, Nat.le_refl _, Nat.le_refl _, fun _ => id⟩
  have ha : w.unspent + 1 + w.panics ≤ w.unspent + (w.panics + 1) := by omega
  exact ⟨he, ha, h.of_extends he rfl rfl (h.tables.extend he) (h.cells.extend he)⟩

/-- A panic that reached the host is kept again. -/
theorem Becomes.addPanic (h : w.Becomes 1 w') (payload : PanicPayload) :
    w.Later (w'.addFailure (.panic (some payload))).2 ∧
      (w'.addFailure (.panic (some payload))).2.Has
        (Value.failure (w'.addFailure (.panic (some payload))).1) := by
  refine ⟨⟨h.extends_.trans (w'.extends_addFailure _), ?_, h.sound.sound_addFailure _⟩, w'.has_addFailure _⟩
  have hu := w'.unspent_addFailure (.panic (some payload))
  have hp : (w'.addFailure (.panic (some payload))).2.panics = w'.panics := rfl
  have ha := h.accounts
  simp only [Failure.isUnspent, if_true] at hu
  omega

/-- A panic reaches the host, and is spent in memory. -/
theorem Sound.spend (h : w.Sound) {place : Nat} {payload : PanicPayload}
    (hf : w.failures[place]? = some (.panic (some payload))) :
    w.Becomes 1 { w with failures := putAt w.failures place (.panic none) } := by
  have he : w.Extends { w with failures := putAt w.failures place (.panic none) } := by
    refine ⟨Nat.le_refl _, Nat.le_refl _, by simp [putAt], fun other ho => ?_⟩
    simp only [HasSpent, putAt, Array.getElem?_setIfInBounds] at ho ⊢
    split
    · next heq => rw [if_pos (heq ▸ (Array.getElem?_eq_some_iff.mp ho).1)]
    · exact ho
  refine ⟨he, ?_, h.of_extends he rfl rfl (h.tables.extend he) (h.cells.extend he)⟩
  obtain ⟨hi, hv⟩ := Array.getElem?_eq_some_iff.mp hf
  -- The failure that changes was not spent before, so that there is one fewer now.
  have hpos : 0 < w.failures.countP (·.isUnspent) :=
    Array.countP_pos_iff.mpr ⟨_, Array.getElem_mem hi, by rw [hv]; rfl⟩
  have hset : (putAt w.failures place (.panic none)).countP (·.isUnspent) + 1 =
      w.failures.countP (·.isUnspent) := by
    have h₁ : (Failure.panic (some payload)).isUnspent = true := rfl
    have h₂ : (Failure.panic none).isUnspent = false := rfl
    rw [putAt, Array.setIfInBounds, dif_pos hi, Array.countP_set, hv, h₁, h₂, if_pos rfl,
      if_neg Bool.false_ne_true]
    omega
  simp only [unspent]
  omega

end World
end ScriptHost.Lua
