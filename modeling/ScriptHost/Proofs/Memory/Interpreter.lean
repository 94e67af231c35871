import ScriptHost.Proofs.Memory.Machine
import ScriptHost.Registry
/-! A new interpreter has a sound memory without panics, and keeps it sound whatever the host makes it do. Of each
piece of work at most one panic reaches the host, and then the answer is that panic. -/
namespace ScriptHost
namespace Lua
open Text (Bytes)

namespace World
variable {w : World}

theorem has_builtins (hp : Builtin.all.size ≤ w.functions.size) {α : Type} (functions : List (String × α))
    (builtin : α → Builtin) :
    ∀ entry ∈ functions.map fun (name, f) => (name, (builtin f).value), w.Has entry.2 := by
  intro entry he
  obtain ⟨⟨name, f⟩, -, rfl⟩ := List.mem_map.mp he
  exact (has_function _).mpr (Nat.lt_of_lt_of_le (builtin f).place_lt hp)

theorem Sound.has_tableEntries (h : w.Sound) : ∀ entry ∈ tableEntries, w.Has entry.2 :=
  has_builtins h.provided _ _

theorem Sound.has_mathEntries (h : w.Sound) : ∀ entry ∈ mathEntries, w.Has entry.2 :=
  List.forall_mem_append.mpr ⟨has_builtins h.provided _ _, by simp⟩

theorem Sound.has_utf8Entries (h : w.Sound) : ∀ entry ∈ utf8Entries, w.Has entry.2 :=
  List.forall_mem_append.mpr ⟨has_builtins h.provided _ _, by simp⟩

theorem Sound.addLibrary (h : w.Sound) (name : String) {entries : Entries} (he : ∀ entry ∈ entries, w.Has entry.2) :
    w.Later (w.addLibrary name entries).2 ∧
      (w.addLibrary name entries).2.Has (Value.table (w.addLibrary name entries).1) := by
  obtain ⟨hadd, hplace⟩ := h.addTable (has_tableOf he)
  have hset := hadd.sound.modifyTable (w.addTable (tableOf entries)).2.globals fun t ht =>
    Table.has_setName ht name hplace
  have hload : Later _ (w.addLibrary name entries).2 := hset.sound.untouched ⟨rfl, rfl, rfl, rfl, rfl, rfl, rfl⟩
  exact ⟨(hadd.trans hset).trans hload, (hplace.later hset).later hload⟩

theorem Sound.setStringMetatable (h : w.Sound) {place : Nat} (hp : w.Has (Value.table place)) :
    w.Later { w with stringMetatable := some place } := by
  have he : w.Extends { w with stringMetatable := some place } :=
    ⟨Nat.le_refl _, Nat.le_refl _, Nat.le_refl _, fun _ => id⟩
  refine ⟨he, Nat.le_refl _, h.provided, h.globals.extend he, ?_, h.tables.extend he, h.cells.extend he⟩
  exact (has_some _).mpr (hp.extend he)

theorem Sound.addStrings (h : w.Sound) : w.Later w.addStrings := by
  obtain ⟨hlibrary, hplace⟩ := h.addLibrary "string" (has_builtins h.provided _ _)
  have hevents := has_tableOf (has_builtins hlibrary.sound.provided Builtin.stringEvents .string)
  obtain ⟨hadd, hmeta⟩ := hlibrary.sound.addTable (Table.has_setName hevents "__index" hplace)
  exact (hlibrary.trans hadd).trans (hadd.sound.setStringMetatable hmeta)

/-- The memory of a new interpreter before the base library is there. -/
private def start : World := { functions := Builtin.all.map .builtin }

private theorem sound_start : (start.addTable (tableOf baseEntries)).2.Sound := by
  have hp : Builtin.all.size ≤ (start.addTable (tableOf baseEntries)).2.functions.size := by
    simp [start, addTable]
  have hentries : (start.addTable (tableOf baseEntries)).2.Has (tableOf baseEntries) :=
    has_tableOf (has_builtins hp _ _)
  refine ⟨hp, (has_table _).mpr Nat.zero_lt_one, has_none, ?_, has_empty_array⟩
  exact has_empty_array.push hentries

theorem sound_base : base.Sound := by
  have hg : (start.addTable (tableOf baseEntries)).2.Has (Value.table (start.addTable (tableOf baseEntries)).1) :=
    sound_start.globals
  have hset := sound_start.modifyTable (start.addTable (tableOf baseEntries)).1 fun t ht =>
    Table.has_setName (Table.has_setName ht "_G" hg) "_VERSION" (has_ofText version)
  refine (hset.sound.untouched (?_ : Untouched _ base)).sound
  exact ⟨rfl, rfl, rfl, rfl, rfl, rfl, rfl⟩

/-- The memory of a new interpreter is sound and without panics, whatever libraries are there. -/
theorem later_ofLibraries (libraries : Libraries) : base.Later (ofLibraries libraries) := by
  have keep {w w' : World} (hw : base.Later w) (hw' : w.Later w') (b : Bool) :
      base.Later (if b then w' else w) := by
    cases b with
    | false => exact hw
    | true => exact hw.trans hw'
  have added {w : World} (hw : base.Later w) (b : Bool) (name : String) {entries : Entries}
      (he : ∀ entry ∈ entries, w.Has entry.2) : base.Later (if b then (w.addLibrary name entries).2 else w) :=
    keep hw (hw.sound.addLibrary name he).1 b
  have h₁ := added sound_base.later libraries.table "table" sound_base.has_tableEntries
  have h₂ := keep h₁ h₁.sound.addStrings libraries.string
  have h₃ := added h₂ libraries.utf8 "utf8" h₂.sound.has_utf8Entries
  exact added h₃ libraries.math "math" h₃.sound.has_mathEntries

theorem unspent_base : base.unspent = 0 := rfl

theorem panics_base : base.panics = 0 := rfl

end World

/-- The number of panics that reach the host with an answer. -/
def Answer.surfaced {α : Type} : Answer α → Nat
  | .panic _ => 1
  | _ => 0

instance {α : Type} [Referring α] : Referring (Answer α) where
  namedIn
    | .ok a, w => w.Has a
    | _, _ => True
  extend {answer _ _} h he := by
    cases answer with
    | ok a => exact World.Has.extend (a := a) h he
    | _ => trivial

namespace Interpreter
variable {i : Interpreter}

/-- What comes of work for the host: what is answered is in the memory, and a panic that is answered has been
spent there. -/
structure Answers {α : Type} [Referring α] (i : Interpreter) (result : Answer α × Interpreter) : Prop where
  becomes : i.world.Becomes result.1.surfaced result.2.world
  has : result.2.world.Has result.1

theorem Answers.after {α : Type} [Referring α] {i j : Interpreter} (hw : i.world.Later j.world)
    {result : Answer α × Interpreter} (answers : j.Answers result) : i.Answers result :=
  ⟨hw.becomes answers.becomes, answers.has⟩

/-- Whatever the machine comes to leaves the memory sound. -/
theorem ended_safe (h : i.world.Sound) (levels : Nat) {t : Task (List Value)} (ht : t.Safe i.world) :
    (Machine.run (provision i.reading) stepLimit (.start i.world levels (.function explainValue) t)).Safe i.world := by
  have hh : i.world.Has (Handler.function explainValue) := h.has_builtin .explain
  exact Machine.run_safe (provision_safe _) stepLimit (Machine.start_safe h levels hh ht)

theorem run_answers (h : i.world.Sound) (levels : Nat) {t : Task (List Value)} (ht : t.Safe i.world) :
    i.Answers (i.run levels t) := by
  have hrun := ended_safe h levels ht
  unfold run
  generalize Machine.run (provision i.reading) stepLimit _ = outcome at hrun ⊢
  cases outcome with
  | finished w values =>
    have hvalues := hrun.1.sound.receiveAll hrun.2
    dsimp only
    generalize w.receiveAll values = arrival at hvalues ⊢
    cases hvalues with
    | value later has => exact ⟨hrun.1.trans later, has⟩
    | panic spent => exact ⟨hrun.1.becomes spent, trivial⟩
  | failed w raised =>
    have herror := hrun.1.sound.arrivedError raised
    dsimp only
    generalize w.arrivedError raised = arrival at herror ⊢
    cases herror with
    | value later has => exact ⟨hrun.1.trans later, trivial⟩
    | panic spent => exact ⟨hrun.1.becomes spent, trivial⟩
  | exhausted w => exact ⟨hrun, trivial⟩

theorem call_answers (h : i.world.Sound) {function : Nat} (hf : i.world.Has (Value.function function)) :
    i.Answers (i.call function) :=
  run_answers h 0 (.call hf has_list_nil)

/-- A chunk that loads is a new function. -/
theorem load_later (h : i.world.Sound) (name : String) (text : Bytes) :
    i.world.Later (i.load name text).2.world ∧
      ∀ function, (i.load name text).1 = .ok function →
        (i.load name text).2.world.Has (Value.function function) := by
  unfold load
  split
  · exact ⟨h.later, by simp⟩
  · split
    · next proto _ =>
      obtain ⟨hadd, hplace⟩ := h.addChunk proto h.has_globals
      refine ⟨hadd, fun function hf => ?_⟩
      cases hf
      exact hplace
    · exact ⟨h.later, by simp⟩
    · exact ⟨h.later, by simp⟩

theorem setGlobal_answers (h : i.world.Sound) (name : String) {v : HostValue} (hv : i.world.Has v) :
    i.Answers (i.setGlobal name v) := by
  obtain ⟨hgive, hgiven⟩ := h.give hv
  unfold setGlobal
  dsimp only
  split
  · refine ⟨World.Later.trans hgive ?_, trivial⟩
    exact hgive.sound.modifyTable _ fun t ht => Table.has_setName ht name hgiven
  · have hset := Operation.setIndex_safe hgive.sound.has_globals (has_ofText name) hgiven none
    have hrun := run_answers (i := { i with world := (i.world.give v).2 })
      (t := setting (i.world.give v).2 name (i.world.give v).1) hgive.sound 1 (.seq hset fun _ => .pure has_list_nil)
    have hafter := hrun.after (i := i) hgive
    generalize run _ 1 _ = result at hafter ⊢
    obtain ⟨_ | e | payload, j⟩ := result
    · exact ⟨hafter.becomes, trivial⟩
    · exact ⟨hafter.becomes, trivial⟩
    · exact ⟨hafter.becomes, trivial⟩

theorem addFunction_later (h : i.world.Sound) (f : HostFunction) :
    i.world.Later (i.addFunction f).2.world ∧
      (i.addFunction f).2.world.Has (HostValue.function (i.addFunction f).1) :=
  h.addFunction (.host f)

theorem takeEvents_later (h : i.world.Sound) : i.world.Later i.takeEvents.2.world :=
  h.untouched ⟨rfl, rfl, rfl, rfl, rfl, rfl, rfl⟩

end Interpreter
end Lua

/-- Functions become globals one after the other. -/
theorem Registry.bindAll_answers (functions : List NativeFunction) (bound : Nat) {i : Lua.Interpreter}
    (h : i.world.Sound) : i.Answers (bindAll functions bound i) := by
  induction functions generalizing bound i with
  | nil => exact ⟨h.later, trivial⟩
  | cons f rest ih =>
    obtain ⟨hadd, hplace⟩ := Lua.Interpreter.addFunction_later h f.function
    have hset := (Lua.Interpreter.setGlobal_answers hadd.sound f.name hplace).after hadd
    unfold bindAll
    dsimp only
    generalize Lua.Interpreter.setGlobal _ _ _ = result at hset ⊢
    obtain ⟨_ | e | payload, j⟩ := result
    · exact (ih (bound + 1) hset.becomes.sound).after hset.becomes
    · exact ⟨hset.becomes, trivial⟩
    · exact ⟨hset.becomes, trivial⟩

end ScriptHost
