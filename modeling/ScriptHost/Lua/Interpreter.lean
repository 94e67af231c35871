import ScriptHost.Lua.Library
/-! What the host does with an interpreter: it loads chunks, calls functions, and reads and sets globals. -/
namespace ScriptHost.Lua
open Text (Bytes)

/-- What comes of work for the host: results, an error, or a panic that goes on in the host. -/
inductive Answer (α : Type) where
  | ok (a : α)
  | error (e : ScriptError)
  | panic (payload : PanicPayload)

/-- The error, if any, with which an interpreter refuses to make a string. There may be no memory for it. -/
abbrev Refusal := Bytes → Option ScriptError

structure Interpreter where
  world : World
  /-- The memory that chunks have taken while they were read, in bytes. -/
  taken : Nat := 0
  deriving Inhabited

namespace Interpreter

/-- The number of steps that a run may take. -/
def stepLimit : Nat := Nat.pow 2 62

def ofLibraries (libraries : Libraries) : Interpreter := { world := .ofLibraries libraries }

def reading (i : Interpreter) (w : World) : MemoryReading := { bytes := w.occupied + i.taken }

/-- Runs a task so many calls deep. Its uncaught errors get a traceback. -/
def run (i : Interpreter) (levels : Nat) (t : Task (List Value)) :
    Answer (List HostValue) × Interpreter :=
  match Machine.run (provision i.reading) stepLimit (.start i.world levels (.function explainValue) t) with
  | .finished w values =>
    match w.receiveAll values with
    | (.ok results, world) => (.ok results, { i with world })
    | (.error payload, world) => (.panic payload, { i with world })
  | .failed w raised =>
    match w.arrivedError raised with
    | (.ok e, world) => (.error e, { i with world })
    | (.error payload, world) => (.panic payload, { i with world })
  | .exhausted world => (.error (.memory "not enough memory"), { i with world })

def call (i : Interpreter) (function : Nat) : Answer (List HostValue) × Interpreter :=
  i.run 0 (Task.call (.function function) [])

def addFunction (i : Interpreter) (f : HostFunction) : Nat × Interpreter :=
  let (place, world) := i.world.addFunction (.host f)
  (place, { i with world })

def checkName (name : String) : Except ScriptError Bytes :=
  match name.toUTF8.data.toList.findIdx? (· == 0) with
  | some place =>
    .error (.runtime s!"invalid name: nul byte found in provided data at position: {place}")
  | none => .ok name.toUTF8

def chunkLevels : Nat := levelLimit - 1

def afterReading (i : Interpreter) (text : Bytes) : Interpreter :=
  { i with taken := i.taken + Chunk.weight text }

def load (i : Interpreter) (name : String) (text : Bytes) : Except ScriptError Nat × Interpreter :=
  match checkName name with
  | .error e => (.error e, i)
  | .ok name =>
    match Chunk.read i.world.written name text BaseFunction.anyMode chunkLevels with
    | .ok proto =>
      let (place, world) := i.world.addChunk proto (.table i.world.globals)
      (.ok place, { i.afterReading text with world })
    | .error (.malformed message) => (.error (.malformed (Text.decodeLossy message)), i.afterReading text)
    | .error .nestedTooDeeply => (.error (.runtime "C stack overflow"), i.afterReading text)

def setting (w : World) (name : String) (v : Value) : Task (List Value) := do
  Operation.setIndex (.table w.globals) (.ofText name) v none
  return []

/-- Sets a global. The metatable of the globals has its say. -/
def setGlobal (i : Interpreter) (name : String) (h : HostValue) : Answer Unit × Interpreter :=
  let (v, w) := i.world.give h
  if (w.table w.globals).metatable.isNone then
    (.ok (), { i with world := w.modifyTable w.globals (·.setName name v) })
  else
    match run { i with world := w } 1 (setting w name v) with
    | (.ok _, i) => (.ok (), i)
    | (.error e, i) => (.error e, i)
    | (.panic payload, i) => (.panic payload, i)

def assign (i : Interpreter) (name : String) (h : HostValue) (refuses : Refusal) : Answer Unit × Interpreter :=
  match refuses name.toUTF8 with
  | some e => (.error e, i)
  | none => i.setGlobal name h

/-- Reads a global, whatever the metatable of the globals says. -/
def global (i : Interpreter) (name : String) : Arrival HostValue × Interpreter :=
  let (h, world) := i.world.receive ((i.world.table i.world.globals).getName name)
  (h, { i with world })

/-- What scripts have written to the log, the earliest first, and the interpreter without it. -/
def takeEvents (i : Interpreter) : List LogEvent × Interpreter :=
  (i.world.events.reverse, { i with world := { i.world with events := [] } })

end Interpreter
end ScriptHost.Lua
