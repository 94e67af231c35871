import ScriptHost.Proofs.Globals
import ScriptHost.Proofs.Memory.Request
/-! What becomes of a value that is to be a global, whatever scripts have done to the globals before. A global that
has a value gets the new one, and so does any other as long as the metatable of the globals leaves it alone. -/
namespace ScriptHost
open Text (Bytes)

namespace Lua

/-- What a name has in a memory that has come of another one by a change of this name. No other name changes. -/
structure World.Assigned (w : World) (name : String) (v : HostValue) (w' : World) : Prop where
  value : (w'.receive (w'.globalValue name)).1 = .ok v
  others : ∀ key : Bytes, key ≠ name.toUTF8 →
    (w'.table w'.globals).get (.string key) = (w.table w.globals).get (.string key)

/-- What the host sees of a value depends on the failures alone. -/
theorem World.receive_fst {w w' : World} (hw : w'.failures = w.failures) (x : Value) :
    (w'.receive x).1 = (w.receive x).1 := by
  cases x with
  | failure place =>
    simp only [receive, hw]
    split <;> rfl
  | _ => rfl

theorem World.Assigned.of_eq {w w' w'' : World} {name : String} {v : HostValue} (ha : w.Assigned name v w')
    (htables : w''.tables = w'.tables) (hglobals : w''.globals = w'.globals)
    (hfailures : w''.failures = w'.failures) : w.Assigned name v w'' := by
  have htable : w''.table w''.globals = w'.table w'.globals := by rw [table, table, htables, hglobals]
  constructor
  · rw [receive_fst hfailures, globalValue, htable]
    exact ha.value
  · rw [htable]
    exact ha.others

/-- A host gets back what it gives. -/
theorem World.receive_give (w : World) (v : HostValue) : ((w.give v).2.receive (w.give v).1).1 = .ok v := by
  cases v with
  | error e =>
    have hplace : (w.give (.error e)).2.failures[w.failures.size]? = some (.error e) := Array.getElem?_push_size
    change (World.receive _ (.failure w.failures.size)).1 = _
    simp only [receive, hplace]
  | _ => rfl

theorem World.tables_give (w : World) (v : HostValue) : (w.give v).2.tables = w.tables := by
  cases v <;> rfl

theorem World.globals_give (w : World) (v : HostValue) : (w.give v).2.globals = w.globals := by
  cases v <;> rfl

/-- A memory in which a global has got a value. -/
def World.assign (w : World) (name : String) (v : HostValue) : World :=
  (w.give v).2.modifyTable w.globals (·.setName name (w.give v).1)

theorem World.Sound.indexed_globals {w : World} (hw : w.Sound) : (w.table w.globals).Indexed :=
  (Table.NamedIn.searchable (hw.has_tableAt w.globals)).indexed

/-- In a sound memory a name of the globals can be changed. -/
theorem World.Sound.globals_assign {w : World} (hw : w.Sound) (name : String) (v : HostValue) :
    (w.assign name v).table (w.assign name v).globals = (w.table w.globals).setName name (w.give v).1 := by
  have hsize : w.globals < (w.give v).2.tables.size := by
    rw [w.tables_give]
    exact hw.globals
  have hsame : (w.give v).2.table w.globals = w.table w.globals := by
    rw [table, table, w.tables_give]
  have hglobals : (w.assign name v).globals = w.globals := w.globals_give v
  rw [hglobals, assign, table_modifyTable hsize, hsame]

theorem World.Sound.globalValue_assign {w : World} (hw : w.Sound) (name : String) (v : HostValue) :
    (w.assign name v).globalValue name = (w.give v).1 := by
  rw [globalValue, hw.globals_assign, hw.indexed_globals.getName_setName, if_pos rfl]

theorem World.Sound.assigned {w : World} (hw : w.Sound) (name : String) (v : HostValue) :
    w.Assigned name v (w.assign name v) := by
  constructor
  · rw [hw.globalValue_assign]
    refine (receive_fst ?_ _).trans (w.receive_give v)
    rfl
  · intro key hkey
    rw [hw.globals_assign, Table.setName, (hw.indexed_globals.set _ _).2, if_neg hkey]

namespace Machine

/-- A task that makes no calls ends with its results. -/
theorem run_start_done {provision : Provision} {t : Task (List Value)} {w w' : World} {values : List Value}
    (ht : t.start w = .done w' values) (levels : Nat) (handler : Handler) (fuel : Nat) :
    run provision (fuel + 4) (start w levels handler t) = .finished w' values := by
  rw [start, ht]
  rfl

end Machine

/-- Whom the metatable of a table lets take the value of a name. Nobody takes that of a name which has a value
already. -/
def World.interceptor? (w : World) (place : Nat) (name : String) : Option Value :=
  match (w.table place).metatable with
  | none => none
  | some rules =>
    if ((w.table place).getName name).isNil then
      match (w.table rules).getName "__newindex" with
      | .nil => none
      | handler => some handler
    else none

namespace Operation
variable {w : World} {place : Nat} {name : String}

/-- What is done with the value of a name by whoever takes it: a function is called with the table, the name and the
value, and anything else is given the value under the name. -/
def leaveTo (handler : Value) (place : Nat) (name : String) (v : Value) : Task Unit :=
  match handler with
  | .function _ => do let _ ← Task.call handler [.table place, .ofText name, v]
  | _ => setIndexFrom none (chainLimit - 1) handler (.ofText name) v

/-- A name of a table gets a value, unless it is left to somebody who takes the value. -/
theorem setIndex_name (v : Value) (k : Unit → World → Step) :
    setIndex (.table place) (.ofText name) v none k w =
      match w.interceptor? place name with
      | none => k () (w.modifyTable place (·.setName name v))
      | some handler => leaveTo handler place name v k w := by
  have hraw : rawSet place (.ofText name) v k w = k () (w.modifyTable place (·.setName name v)) := rfl
  have hkey : Key.ofValue? (.ofText name) = some (.string name.toUTF8) := rfl
  have hget : (w.table place).get (.string name.toUTF8) = (w.table place).getName name := rfl
  have hlimit : chainLimit = chainLimit - 1 + 1 := rfl
  rw [setIndex, hlimit]
  unfold leaveTo
  generalize chainLimit - 1 = fuel
  rw [setIndexFrom]
  simp only [hraw, hkey, hget, World.interceptor?]
  cases (w.table place).metatable with
  | none => rfl
  | some rules =>
    dsimp only
    cases ((w.table place).getName name).isNil with
    | false => rfl
    | true =>
      simp only [Bool.not_true, Bool.false_eq_true, if_false, if_true]
      cases (w.table rules).getName "__newindex" <;> rfl

end Operation

namespace Interpreter

/-- What comes of a global that is left to somebody who takes its value. -/
def intercept (i : Interpreter) (handler : Value) (name : String) (h : HostValue) : Answer Unit × Interpreter :=
  let (v, w) := i.world.give h
  let task : Task (List Value) := do
    Operation.leaveTo handler w.globals name v
    return []
  match run { i with world := w } 1 task with
  | (.ok _, i) => (.ok (), i)
  | (.error e, i) => (.error e, i)
  | (.panic payload, i) => (.panic payload, i)

variable {i : Interpreter}

/-- A run depends on how its task starts. -/
theorem run_eq_of_start {t t' : Task (List Value)} (ht : t.start i.world = t'.start i.world) (levels : Nat) :
    i.run levels t = i.run levels t' := by
  rw [run, run, Machine.start, Machine.start, ht]

theorem run_of_done {t : Task (List Value)} {w' : World} (ht : t.start i.world = .done w' []) (levels : Nat) :
    i.run levels t = (.ok [], { i with world := w' }) := by
  have hlimit : stepLimit = stepLimit - 4 + 4 := by decide
  rw [run, hlimit, Machine.run_start_done ht]
  rfl

/-- Whom the metatable of the globals lets take the value of a name. -/
def interceptor? (i : Interpreter) (name : String) : Option Value := i.world.interceptor? i.world.globals name

/-- A global gets the value that it is to have, unless it is left to somebody who takes the value. -/
theorem setGlobal_eq (i : Interpreter) (name : String) (v : HostValue) :
    i.setGlobal name v = match i.interceptor? name with
      | none => (.ok (), { i with world := i.world.assign name v })
      | some handler => i.intercept handler name v := by
  have hglobals := i.world.globals_give v
  have htables := i.world.tables_give v
  unfold setGlobal intercept interceptor? World.assign
  generalize i.world.give v = given at hglobals htables ⊢
  obtain ⟨x, w⟩ := given
  dsimp only at hglobals htables ⊢
  -- What is given to scripts is in no table yet.
  have htable (place : Nat) : i.world.table place = w.table place := by rw [World.table, World.table, htables]
  have hsame : i.world.interceptor? i.world.globals name = w.interceptor? w.globals name := by
    simp only [World.interceptor?, htable, hglobals]
  rw [hsame, ← hglobals]
  split
  · next hplain =>
    have hnone : w.interceptor? w.globals name = none := by
      rw [World.interceptor?, Option.isNone_iff_eq_none.mp hplain]
    rw [hnone]
  · have hstart (k : Unit → World → Step) := @Operation.setIndex_name w w.globals name x k
    cases hn : w.interceptor? w.globals name with
    | none =>
      simp only [hn] at hstart
      have hdone : (setting w name x).start w =
          .done (w.modifyTable w.globals (·.setName name x)) [] := hstart _
      rw [run_of_done (i := { i with world := w }) hdone]
    | some handler =>
      simp only [hn] at hstart
      have hleft : (setting w name x).start w =
          Task.start (do Operation.leaveTo handler w.globals name x; return []) w := hstart _
      exact run_eq_of_start (i := { i with world := w }) hleft 1 ▸ rfl

end Interpreter
end Lua

namespace Host
open Lua (Interpreter HostValue)

/-- If a value can be made a global, the global has it afterwards, no other global has changed, and of the stack only
the value is gone. -/
def BindsGlobal (h : Host) (name : String) : Prop :=
  ∀ i v rest, h.interpreter = some i → h.stack = v :: rest → (h.answer (.bindGlobal name)).1 = .ok .done →
    (h.answer (.bindGlobal name)).2.stack = rest ∧
      ∃ j, (h.answer (.bindGlobal name)).2.interpreter = some j ∧ i.world.Assigned name v j.world

variable {h : Host} {i : Interpreter} {v : HostValue} {rest : List HostValue}

/-- The value is gone before anything is known about the global. -/
theorem stack_bindGlobal (hi : h.interpreter = some i) (hs : h.stack = v :: rest) (name : String) :
    (h.answer (.bindGlobal name)).2.stack = rest := by
  rw [h.answer_bindGlobal_cons hi hs]
  rcases i.setGlobal name v with ⟨_ | e | payload, j⟩ <;> rfl

theorem bindGlobal_done_iff (hi : h.interpreter = some i) (hs : h.stack = v :: rest) (name : String) :
    (h.answer (.bindGlobal name)).1 = .ok .done ↔ ∃ j, i.setGlobal name v = (.ok (), j) := by
  rw [h.answer_bindGlobal_cons hi hs]
  rcases i.setGlobal name v with ⟨_ | e | payload, j⟩ <;> simp

/-- What the interpreter makes of a global is left when what scripts wrote to the log has been taken. -/
theorem interpreter_bindGlobal (hi : h.interpreter = some i) (hs : h.stack = v :: rest) {name : String}
    {j : Interpreter} (hset : i.setGlobal name v = (.ok (), j)) :
    (h.answer (.bindGlobal name)).2.interpreter = some j.takeEvents.2 := by
  rw [h.answer_bindGlobal_cons hi hs, hset]
  rfl

theorem bindsGlobal_iff (hi : h.interpreter = some i) (hs : h.stack = v :: rest) (name : String) :
    h.BindsGlobal name ↔ ∀ j, i.setGlobal name v = (.ok (), j) → i.world.Assigned name v j.world := by
  constructor
  · intro hbinds j hset
    obtain ⟨-, k, hk, hassigned⟩ := hbinds i v rest hi hs ((bindGlobal_done_iff hi hs name).mpr ⟨j, hset⟩)
    rw [interpreter_bindGlobal hi hs hset, Option.some_inj] at hk
    exact hassigned.of_eq (hk ▸ rfl) (hk ▸ rfl) (hk ▸ rfl)
  · intro hassigned i' v' rest' hi' hs' hdone
    cases hi.symm.trans hi'
    cases hs.symm.trans hs'
    obtain ⟨j, hset⟩ := (bindGlobal_done_iff hi hs name).mp hdone
    exact ⟨stack_bindGlobal hi hs name, _, interpreter_bindGlobal hi hs hset,
      (hassigned j hset).of_eq rfl rfl rfl⟩

/-- Whatever scripts have done before, a value leaves the stack when it is to be a global. A global whose value nobody
takes gets it without fail. One whose value is taken, by the handler that the metatable of the globals has for names
without a value, gets it exactly if the handler gives it to the global, and to no other one. -/
theorem bindGlobal_binds_iff (hr : Reachable h) (hi : h.interpreter = some i) (hs : h.stack = v :: rest)
    (name : String) :
    (h.answer (.bindGlobal name)).2.stack = rest ∧
      (i.interceptor? name = none → (h.answer (.bindGlobal name)).1 = .ok .done ∧ h.BindsGlobal name) ∧
      (h.BindsGlobal name ↔ ∀ handler j, i.interceptor? name = some handler →
        i.intercept handler name v = (.ok (), j) → i.world.Assigned name v j.world) := by
  have hassigned := (hr.sound i hi).1.assigned name v
  have hbinds := bindsGlobal_iff hi hs name
  have hset := i.setGlobal_eq name v
  refine ⟨stack_bindGlobal hi hs name, fun hn => ?_, ?_⟩
  · rw [hn] at hset
    refine ⟨(bindGlobal_done_iff hi hs name).mpr ⟨_, hset⟩, hbinds.mpr fun j hj => ?_⟩
    cases hset.symm.trans hj
    exact hassigned
  · rw [hbinds, hset]
    cases hn : i.interceptor? name with
    | none =>
      refine ⟨fun _ _ _ hsome => ?_, fun _ j hj => ?_⟩
      · cases hsome
      · cases hj
        exact hassigned
    | some handler =>
      refine ⟨fun ha handler' j hsome hj => ?_, fun ha j hj => ha handler j rfl hj⟩
      cases hsome
      exact ha j hj

/-- A host with a value on its stack. A global of it has a value already, and others do not come. -/
def swallowing : Host :=
  (offering []).after
    [.run (.script "x = 1 setmetatable(_G, \x7b__newindex = function() end\x7d)"), .pushInteger 7]

theorem bindGlobal_binds_iff_swallowing :
    ∃ i rest, Reachable swallowing ∧ swallowing.interpreter = some i ∧ swallowing.stack = .int 7 :: rest ∧
      i.interceptor? "x" = none ∧ (i.interceptor? "y").isSome ∧
      (swallowing.answer (.bindGlobal "x")).1 = .ok .done ∧ swallowing.BindsGlobal "x" := by
  have hr : Reachable swallowing := (Reachable.offering []).after _
  obtain ⟨i, hi⟩ := Option.isSome_iff_exists.mp hr.interpreter_isSome
  have hinterceptors : swallowing.interpreter.all fun i =>
      (i.interceptor? "x").isNone && (i.interceptor? "y").isSome := by decide +kernel
  rw [hi, Option.all_some, Bool.and_eq_true, Option.isNone_iff_eq_none] at hinterceptors
  obtain ⟨hx, hy⟩ := hinterceptors
  obtain ⟨-, hbinds, -⟩ := bindGlobal_binds_iff hr hi (v := .int 7) rfl "x"
  exact ⟨i, _, hr, hi, rfl, hx, hy, hbinds hx⟩

/-- The value of a global that does not come is gone, and nobody is told. -/
theorem bindGlobal_done_without_global :
    Reachable swallowing ∧ swallowing.peekInteger (-1) = some 7 ∧
      (swallowing.answer (.bindGlobal "y")).1 = .ok .done ∧
      (swallowing.answer (.bindGlobal "y")).2.depth = 0 ∧ ¬ swallowing.BindsGlobal "y" := by
  have hr : Reachable swallowing := (Reachable.offering []).after _
  have hdone : (swallowing.answer (.bindGlobal "y")).1 = .ok .done := by
    have hreply : (swallowing.answer (.bindGlobal "y")).1.toOption = some .done := by decide +kernel
    cases hanswer : (swallowing.answer (.bindGlobal "y")).1 with
    | error e =>
      rw [hanswer] at hreply
      cases hreply
    | ok reply =>
      rw [hanswer] at hreply
      cases hreply
      rfl
  have hnil : (swallowing.answer (.bindGlobal "y")).2.interpreter.all fun j =>
      (j.world.globalValue "y").isNil := by decide +kernel
  refine ⟨hr, by decide +kernel, hdone, by decide +kernel, fun hbinds => ?_⟩
  obtain ⟨i, hi⟩ := Option.isSome_iff_exists.mp hr.interpreter_isSome
  obtain ⟨-, j, hj, hassigned⟩ := hbinds i (.int 7) _ hi rfl hdone
  have hvalue := hassigned.value
  rw [hj, Option.all_some] at hnil
  cases hglobal : j.world.globalValue "y" with
  | nil =>
    rw [hglobal] at hvalue
    cases hvalue
  | _ =>
    rw [hglobal] at hnil
    cases hnil

end Host
end ScriptHost
