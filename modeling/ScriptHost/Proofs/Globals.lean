import ScriptHost.Lua.Interpreter
import ScriptHost.Proofs.Memory.Lookup
/-! Globals that no script has touched. Every name among them is found where it is, and giving one of them a value
changes that one and nothing else. -/
namespace ScriptHost.Lua

namespace Table

theorem metatable_place (t : Table) (key : Key) (v : Value) : (t.place key v).metatable = t.metatable := by
  unfold place
  split <;> rfl

private theorem metatable_foldl {α : Type} {add : Table → α → Table}
    (same : ∀ u a, (add u a).metatable = u.metatable) (items : List α) (u : Table) :
    (items.foldl add u).metatable = u.metatable := by
  induction items generalizing u with
  | nil => rfl
  | cons a rest ih => rw [List.foldl_cons, ih, same]

/-- Keys move when a table grows, and its metatable stays. -/
theorem metatable_resize (t : Table) (size others : Nat) :
    (t.resize size others).metatable = t.metatable := by
  unfold resize
  rw [← Array.foldl_toList, metatable_foldl, metatable_foldl]
  · exact fun _ _ => rfl
  · intro u (key, v)
    by_cases hv : v.isNil <;> simp [hv, metatable_place]

@[simp] theorem metatable_set (t : Table) (key : Key) (v : Value) :
    (t.set key v).metatable = t.metatable := by
  unfold set
  split
  · rfl
  · split
    · rfl
    · split
      · rfl
      · split
        · rfl
        · exact (metatable_place ..).trans (metatable_resize ..)

@[simp] theorem metatable_setName (t : Table) (name : String) (v : Value) :
    (t.setName name v).metatable = t.metatable := metatable_set ..

end Table

theorem metatable_tableOf (entries : Entries) : (tableOf entries).metatable = none :=
  Table.metatable_foldl (fun u (name, v) => u.metatable_setName name v) entries {}

namespace World
variable {w w' : World}

theorem table_addTable (w : World) (t : Table) (place : Nat) :
    (w.addTable t).2.table place = if place = w.tables.size then t else w.table place := by
  simp only [addTable, table, Array.getElem?_push]
  split <;> rfl

theorem table_modifyTable {place : Nat} (hp : place < w.tables.size) (change : Table → Table) :
    (w.modifyTable place change).table place = change (w.table place) := by
  simp only [table, modifyTable, changeAt, Array.getElem?_modify, if_true, Array.getElem?_eq_getElem hp]
  rfl

/-- The value of a global, whatever the metatable of the globals says. -/
def globalValue (w : World) (name : String) : Value := (w.table w.globals).getName name

/-- The globals are a table without a metatable that finds every name. -/
structure OpenGlobals (w : World) : Prop where
  plain : (w.table w.globals).metatable = none
  inUse : w.globals < w.tables.size
  indexed : (w.table w.globals).Indexed

theorem OpenGlobals.of_tables (hw : w.OpenGlobals) (ht : w'.tables = w.tables) (hg : w'.globals = w.globals) :
    w'.OpenGlobals := by
  have htable : w'.table w'.globals = w.table w.globals := by rw [table, table, ht, hg]
  constructor
  · rw [htable]
    exact hw.plain
  · rw [ht, hg]
    exact hw.inUse
  · rw [htable]
    exact hw.indexed

theorem OpenGlobals.addTable (hw : w.OpenGlobals) (t : Table) : (w.addTable t).2.OpenGlobals := by
  have htable : (w.addTable t).2.table w.globals = w.table w.globals := by
    rw [table_addTable, if_neg (Nat.ne_of_lt hw.inUse)]
  constructor
  · exact (congrArg Table.metatable htable).trans hw.plain
  · exact Nat.lt_of_lt_of_le hw.inUse (by simp [World.addTable])
  · exact htable ▸ hw.indexed

/-- A global that is set has its new value, and no other global changes. -/
theorem OpenGlobals.setName (hw : w.OpenGlobals) (name : String) (v : Value) :
    (w.modifyTable w.globals (·.setName name v)).OpenGlobals ∧
      ∀ name', (w.modifyTable w.globals (·.setName name v)).globalValue name' =
        if name' = name then v else w.globalValue name' := by
  have htable := table_modifyTable hw.inUse (·.setName name v)
  refine ⟨⟨?_, ?_, ?_⟩, fun name' => ?_⟩
  · exact (congrArg Table.metatable htable).trans ((Table.metatable_setName ..).trans hw.plain)
  · exact Nat.lt_of_lt_of_eq hw.inUse (Array.size_modify ..).symm
  · exact htable ▸ hw.indexed.setName name v
  · exact (congrArg (Table.getName · name') htable).trans (hw.indexed.getName_setName name name' v)

theorem OpenGlobals.addLibrary (hw : w.OpenGlobals) (name : String) (entries : Entries) :
    (w.addLibrary name entries).2.OpenGlobals :=
  ((hw.addTable (tableOf entries)).setName name (.table (w.addTable (tableOf entries)).1)).1.of_tables rfl rfl

theorem OpenGlobals.addStrings (hw : w.OpenGlobals) : w.addStrings.OpenGlobals := by
  have hadd := (hw.addLibrary "string" stringEntries).addTable
    ((tableOf stringEventEntries).setName "__index" (.table (w.addLibrary "string" stringEntries).1))
  exact hadd.of_tables rfl rfl

theorem openGlobals_base : base.OpenGlobals := by
  have htable : base.table base.globals =
      ((tableOf baseEntries).setName "_G" (.table 0)).setName "_VERSION" (.ofText version) := by
    simp [base, World.addTable, modifyTable, table, changeAt]
  constructor
  · rw [htable, Table.metatable_setName, Table.metatable_setName, metatable_tableOf]
  · simp [base, World.addTable, modifyTable, changeAt]
  · rw [htable]
    exact ((indexed_tableOf baseEntries).setName _ _).setName _ _

/-- Whatever libraries a new interpreter has, its globals are open. -/
theorem openGlobals_ofLibraries (libraries : Libraries) : (ofLibraries libraries).OpenGlobals := by
  have keep {w w' : World} (hw : w.OpenGlobals) (hw' : w'.OpenGlobals) (b : Bool) :
      (if b then w' else w).OpenGlobals := by cases b <;> assumption
  have h₁ := keep openGlobals_base (openGlobals_base.addLibrary "table" tableEntries) libraries.table
  have h₂ := keep h₁ h₁.addStrings libraries.string
  have h₃ := keep h₂ (h₂.addLibrary "utf8" utf8Entries) libraries.utf8
  exact keep h₃ (h₃.addLibrary "math" mathEntries) libraries.math

theorem OpenGlobals.give (hw : w.OpenGlobals) (v : HostValue) : (w.give v).2.OpenGlobals := by
  cases v <;> exact hw.of_tables rfl rfl

private theorem changeAt_id (tables : Array Table) (place : Nat) : changeAt tables place id = tables := by
  apply Array.ext_getElem?
  intro i
  simp [changeAt, Array.getElem?_modify]

private theorem changeAt_changeAt (tables : Array Table) (place : Nat) (change change' : Table → Table) :
    changeAt (changeAt tables place change) place change' = changeAt tables place (change' ∘ change) := by
  apply Array.ext_getElem?
  intro i
  simp only [changeAt, Array.getElem?_modify]
  split <;> simp

/-- Two memories that differ in the table of the globals and in functions that one of them has in addition. -/
def BindsMore (w w' : World) : Prop :=
  ∃ change functions, w' =
    { w with tables := changeAt w.tables w.globals change, functions := w.functions ++ functions }

theorem BindsMore.trans {w'' : World} (h : w.BindsMore w') (h' : w'.BindsMore w'') : w.BindsMore w'' := by
  obtain ⟨change, functions, rfl⟩ := h
  obtain ⟨change', functions', rfl⟩ := h'
  refine ⟨change' ∘ change, functions ++ functions', ?_⟩
  rw [← Array.append_assoc, ← changeAt_changeAt]

theorem BindsMore.modifyGlobals (w : World) (change : Table → Table) :
    w.BindsMore (w.modifyTable w.globals change) :=
  ⟨change, #[], by rw [Array.append_empty]; rfl⟩

theorem BindsMore.refl (w : World) : w.BindsMore w :=
  ⟨id, #[], by rw [changeAt_id, Array.append_empty]⟩

theorem BindsMore.addFunction (w : World) (f : FunctionObject) : w.BindsMore (w.addFunction f).2 :=
  ⟨id, #[f], by rw [changeAt_id]; rfl⟩

theorem BindsMore.function? (h : w.BindsMore w') {place : Nat} {f : FunctionObject}
    (hf : w.functions[place]? = some f) : w'.functions[place]? = some f := by
  obtain ⟨change, functions, rfl⟩ := h
  exact (Array.getElem?_append_left (Array.getElem?_eq_some_iff.mp hf).1).trans hf

/-- A value means the same to the host. -/
theorem BindsMore.receive (h : w.BindsMore w') (v : Value) : (w'.receive v).1 = (w.receive v).1 := by
  obtain ⟨change, functions, rfl⟩ := h
  cases v with
  | failure place =>
    simp only [World.receive]
    split <;> rfl
  | _ => rfl

end World

/-- Open globals take every value as it is given, and no metatable has its say. -/
theorem Interpreter.setGlobal_of_open {i : Interpreter} (hi : i.world.OpenGlobals) (name : String) (v : HostValue) :
    ∃ j, i.setGlobal name v = (.ok (), j) ∧ j.world.OpenGlobals ∧ (i.world.give v).2.BindsMore j.world ∧
      ∀ name', j.world.globalValue name' =
        if name' = name then (i.world.give v).1 else i.world.globalValue name' := by
  have hgive := hi.give v
  have hplain := hgive.plain
  obtain ⟨hopen, hvalue⟩ := hgive.setName name (i.world.give v).1
  have hsame (name' : String) : (i.world.give v).2.globalValue name' = i.world.globalValue name' := by
    cases v <;> rfl
  let world := (i.world.give v).2.modifyTable (i.world.give v).2.globals (·.setName name (i.world.give v).1)
  refine ⟨{ i with world }, ?_, hopen, .modifyGlobals .., fun name' => ?_⟩
  · unfold World.table at hplain
    simp only [setGlobal, World.table, hplain, Option.isNone_none, if_true, world]
  · exact (hvalue name').trans (by rw [hsame])

theorem Interpreter.global_fst (i : Interpreter) (name : String) :
    (i.global name).1 = (i.world.receive (i.world.globalValue name)).1 := rfl

end ScriptHost.Lua
