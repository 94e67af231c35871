import ScriptHost.Lua.Library
/-! What a memory has. Values name tables, functions and failures by their places, and in a sound memory every
place that is named anywhere is in use. The memory only grows, so that a value stays good. -/
namespace ScriptHost.Lua
open Text (Bytes)

namespace World

/-- Whether a panic has been at a place until it reached the host. -/
def HasSpent (w : World) (place : Nat) : Prop := w.failures[place]? = some (.panic none)

/-- A memory has all the places of another one. A panic that has reached the host does not come back. -/
structure Extends (w w' : World) : Prop where
  tables : w.tables.size ≤ w'.tables.size
  functions : w.functions.size ≤ w'.functions.size
  failures : w.failures.size ≤ w'.failures.size
  spent : ∀ place, w.HasSpent place → w'.HasSpent place

theorem Extends.refl (w : World) : w.Extends w :=
  ⟨Nat.le_refl _, Nat.le_refl _, Nat.le_refl _, fun _ => id⟩

theorem Extends.trans {w₁ w₂ w₃ : World} (h₁ : w₁.Extends w₂) (h₂ : w₂.Extends w₃) : w₁.Extends w₃ :=
  ⟨Nat.le_trans h₁.tables h₂.tables, Nat.le_trans h₁.functions h₂.functions,
    Nat.le_trans h₁.failures h₂.failures, fun place hp => h₂.spent place (h₁.spent place hp)⟩

end World

/-- Data that may name places in the memory of an interpreter. -/
class Referring (α : Type) where
  /-- Whether all places that are named are in use. -/
  namedIn : α → World → Prop
  /-- Places stay in use. -/
  extend : ∀ {a w w'}, namedIn a w → w.Extends w' → namedIn a w'

/-- Types of data that names no places. -/
class Plain (α : Type) : Prop

instance {α : Type} [Plain α] : Referring α := ⟨fun _ _ => True, fun _ _ => trivial⟩

/-- A memory has all that some data names. -/
def World.Has {α : Type} [Referring α] (w : World) (a : α) : Prop := Referring.namedIn a w

theorem World.Has.extend {α : Type} [Referring α] {w w' : World} {a : α} (ha : w.Has a)
    (he : w.Extends w') : w'.Has a := Referring.extend ha he

/-- Whether the place that a value names is in use. -/
def Value.namedIn (v : Value) (w : World) : Prop :=
  match v with
  | .table place => place < w.tables.size
  | .function place => place < w.functions.size
  | .failure place => place < w.failures.size
  | _ => True

instance : Referring Value where
  namedIn := Value.namedIn
  extend {v _ _} hv he := by
    cases v with
    | table _ => exact Nat.lt_of_lt_of_le hv he.tables
    | function _ => exact Nat.lt_of_lt_of_le hv he.functions
    | failure _ => exact Nat.lt_of_lt_of_le hv he.failures
    | _ => trivial

instance : Referring Key where
  namedIn key w := w.Has key.value
  extend := World.Has.extend (α := Value)

instance {α : Type} [Referring α] : Referring (List α) where
  namedIn as w := ∀ a ∈ as, w.Has a
  extend h he a ha := (h a ha).extend he

instance {α : Type} [Referring α] : Referring (Array α) where
  namedIn as w := ∀ a ∈ as, w.Has a
  extend h he a ha := (h a ha).extend he

instance {α β : Type} [Referring α] [Referring β] : Referring (α × β) where
  namedIn p w := w.Has p.1 ∧ w.Has p.2
  extend h he := ⟨h.1.extend he, h.2.extend he⟩

instance {α : Type} [Referring α] : Referring (Option α) where
  namedIn a? w := ∀ a, a? = some a → w.Has a
  extend h he a ha := (h a ha).extend he

instance {ε α : Type} [Referring ε] [Referring α] : Referring (Except ε α) where
  namedIn
    | .ok a, w => w.Has a
    | .error e, w => w.Has e
  extend {x _ _} h he := by cases x <;> exact World.Has.extend h he

instance : Plain Unit := ⟨⟩
instance : Plain Bool := ⟨⟩
instance : Plain Nat := ⟨⟩
instance : Plain Int64 := ⟨⟩
instance : Plain UInt64 := ⟨⟩
instance : Plain Float := ⟨⟩
instance : Plain Bytes := ⟨⟩
instance : Plain String := ⟨⟩
instance : Plain Number := ⟨⟩

section Has
variable {α β ε : Type} [Referring α] [Referring β] [Referring ε] {w : World}

@[simp] theorem has_nil : w.Has Value.nil := trivial
@[simp] theorem has_bool (b : Bool) : w.Has (Value.bool b) := trivial
@[simp] theorem has_int (i : Int64) : w.Has (Value.int i) := trivial
@[simp] theorem has_float (x : Float) : w.Has (Value.float x) := trivial
@[simp] theorem has_string (s : Bytes) : w.Has (Value.string s) := trivial
@[simp] theorem has_pointer (address : UInt64) : w.Has (Value.pointer address) := trivial
@[simp] theorem has_ofText (s : String) : w.Has (Value.ofText s) := trivial
@[simp] theorem has_ofNat (n : Nat) : w.Has (Value.ofNat n) := trivial

@[simp] theorem has_table (place : Nat) : w.Has (Value.table place) ↔ place < w.tables.size := Iff.rfl
@[simp] theorem has_function (place : Nat) : w.Has (Value.function place) ↔ place < w.functions.size :=
  Iff.rfl
@[simp] theorem has_failure (place : Nat) : w.Has (Value.failure place) ↔ place < w.failures.size := Iff.rfl

@[simp] theorem has_ofNumber (n : Number) : w.Has (Value.ofNumber n) := by cases n <;> trivial

@[simp] theorem has_ofConstant (c : Constant) : w.Has (Value.ofConstant c) := by
  cases c with
  | number n => cases n <;> trivial
  | _ => trivial

@[simp] theorem has_key (key : Key) : w.Has key ↔ w.Has key.value := Iff.rfl

@[simp] theorem has_plain {δ : Type} [Plain δ] (d : δ) : w.Has d := trivial

@[simp] theorem has_list_nil : w.Has ([] : List α) := by simp [World.Has, Referring.namedIn]

@[simp] theorem has_list_cons (a : α) (as : List α) : w.Has (a :: as) ↔ w.Has a ∧ w.Has as :=
  List.forall_mem_cons

theorem has_empty_array : w.Has (#[] : Array α) := fun _ ha => absurd ha (Array.not_mem_empty _)

@[simp] theorem has_pair (a : α) (b : β) : w.Has (a, b) ↔ w.Has a ∧ w.Has b := Iff.rfl

@[simp] theorem has_none : w.Has (none : Option α) := by simp [World.Has, Referring.namedIn]

@[simp] theorem has_some (a : α) : w.Has (some a) ↔ w.Has a := by simp [World.Has, Referring.namedIn]

@[simp] theorem has_ok (a : α) : w.Has (.ok a : Except ε α) ↔ w.Has a := Iff.rfl

@[simp] theorem has_error (e : ε) : w.Has (.error e : Except ε α) ↔ w.Has e := Iff.rfl

@[simp] theorem has_append (as bs : List α) : w.Has (as ++ bs) ↔ w.Has as ∧ w.Has bs :=
  List.forall_mem_append

theorem World.Has.mem {a : α} {as : List α} (h : w.Has as) (ha : a ∈ as) : w.Has a := h a ha

theorem World.Has.of_subset {as bs : List α} (h : w.Has bs) (hs : as ⊆ bs) : w.Has as :=
  fun a ha => h a (hs ha)

@[simp] theorem has_reverse (as : List α) : w.Has as.reverse ↔ w.Has as :=
  ⟨fun h => h.of_subset (by simp), fun h => h.of_subset (by simp)⟩

theorem World.Has.drop {as : List α} (h : w.Has as) (n : Nat) : w.Has (as.drop n) :=
  h.of_subset (List.drop_subset n as)

theorem World.Has.tail {as : List α} (h : w.Has as) : w.Has as.tail :=
  fun a ha => h a (List.mem_of_mem_tail ha)

theorem World.Has.headD {as : List α} (h : w.Has as) {a : α} (ha : w.Has a) : w.Has (as.headD a) := by
  cases as with
  | nil => exact ha
  | cons b bs => exact (has_list_cons b bs |>.mp h).1

theorem World.Has.getD {a? : Option α} (h : w.Has a?) {a : α} (ha : w.Has a) : w.Has (a?.getD a) := by
  cases a? with
  | none => exact ha
  | some b => exact h b rfl

theorem World.Has.get? {as : List α} (h : w.Has as) (i : Nat) : w.Has as[i]? :=
  fun _ ha => h _ (List.mem_of_getElem? ha)

theorem World.Has.at? {as : Array α} (h : w.Has as) (i : Nat) : w.Has as[i]? :=
  fun _ ha => h _ (Array.mem_of_getElem? ha)

theorem World.Has.set! {as : Array α} (h : w.Has as) (i : Nat) {a : α} (ha : w.Has a) : w.Has (as.set! i a) := by
  intro b hb
  rw [Array.set!_eq_setIfInBounds] at hb
  obtain hb | rfl := Array.mem_or_eq_of_mem_setIfInBounds hb
  · exact h b hb
  · exact ha

theorem World.Has.putAt {as : Array α} (h : w.Has as) (i : Nat) {a : α} (ha : w.Has a) :
    w.Has (putAt as i a) := h.set! i ha

theorem World.Has.push {as : Array α} (h : w.Has as) {a : α} (ha : w.Has a) : w.Has (as.push a) := by
  intro b hb
  obtain hb | rfl := Array.mem_push.mp hb
  · exact h b hb
  · exact ha

end Has

/-- Every function that the interpreter provides has a place. -/
theorem Builtin.place_lt (f : Builtin) : f.place < Builtin.all.size := by
  unfold place
  rw [Array.idxOf?]
  cases Builtin.all.finIdxOf? f with
  | none => decide
  | some i => exact i.isLt

end ScriptHost.Lua
