import ScriptHost.Lua.Library.Sort
/-! The library of tables, which takes them as lists. -/
namespace ScriptHost.Lua.TableFunction
open Text (Bytes)

/-- The events that a value has to handle to be taken for a list. -/
structure Access where
  reads : Bool := false
  writes : Bool := false
  measures : Bool := false

def Access.events (access : Access) : List String :=
  (if access.reads then ["__index"] else []) ++ (if access.writes then ["__newindex"] else []) ++
    (if access.measures then ["__len"] else [])

def listArgument (args : List Value) (n : Nat) (access : Access) : Task Value := do
  let v := Argument.get args n
  match v with
  | .table _ => return v
  | _ =>
    let suits ← Task.read fun w =>
      (w.metatable? v).isSome && access.events.all fun event => !(w.handler v event).isNil
    if suits then return v else Argument.mismatch args n "table"

def lengthOf (list : Value) : Task Int64 := do
  match (← Operation.length list).toInteger? with
  | some n => return n
  | none => Task.failCaller "object length is not an integer"

def get (list : Value) (i : Int64) : Task Value := Operation.index list (.int i) none

def set (list : Value) (i : Int64) (v : Value) : Task Unit := Operation.setIndex list (.int i) v none

/-- Copies so many values one after the other, going up or down from the given places. -/
def copy (source : Value) (target : Value) (step : Int64) : Nat → Int64 → Int64 → Task Unit
  | 0, _, _ => pure ()
  | count + 1, i, j => do
    set target j (← get source i)
    copy source target step count (i + step) (j + step)

def runInsert (args : List Value) : Task (List Value) := do
  let list ← listArgument args 1 { reads := true, writes := true, measures := true }
  let last := (← lengthOf list) + 1
  match args with
  | [_, v] =>
    set list last v
    return []
  | [_, _, v] =>
    let place ← Argument.integer args 2
    Argument.require ((place - 1).toUInt64 < last.toUInt64) 2 "position out of bounds"
    copy list list (-1) (last - place).toNatClampNeg (last - 1) last
    set list place v
    return []
  | _ => Task.failCaller "wrong number of arguments to 'insert'"

def runRemove (args : List Value) : Task (List Value) := do
  let list ← listArgument args 1 { reads := true, writes := true, measures := true }
  let size ← lengthOf list
  let place ← Argument.integerOr args 2 size
  Argument.require (place == size || (place - 1).toUInt64 ≤ size.toUInt64) 2 "position out of bounds"
  let v ← get list place
  let moved := if place < size then (size - place).toNatClampNeg else 0
  copy list list 1 moved (place + 1) place
  set list (if place < size then size else place) .nil
  return [v]

def runMove (args : List Value) : Task (List Value) := do
  let first ← Argument.integer args 2
  let last ← Argument.integer args 3
  let start ← Argument.integer args 4
  let other := if Argument.isAbsent args 5 then 1 else 5
  let source ← listArgument args 1 { reads := true }
  let target ← listArgument args other { writes := true }
  if last < first then return [target]
  else
    Argument.require (0 < first || last < Int64.maxValue + first) 3 "too many elements to move"
    let count := last - first + 1
    Argument.require (start ≤ Int64.maxValue - count + 1) 4 "destination wrap around"
    let n := count.toNatClampNeg
    let apart ← if last < start || start ≤ first then pure true
      else if other == 1 then pure false
      else do pure (!(← Operation.equal source target))
    if apart then copy source target 1 n first start
    else copy source target (-1) n last (start + count - 1)
    return [target]

def elementText (list : Value) (i : Int64) : Task Bytes := do
  let v ← get list i
  match v.toBytes? with
  | some s => return s
  | none =>
    Task.failCaller s!"invalid value ({v.typeName}) at index {i} in table for 'concat'"

/-- The texts of so many elements from a place on, with a text between them. -/
def join (list : Value) (between : Bytes) : Nat → Int64 → Bytes → Task Bytes
  | 0, _, out => pure out
  | count + 1, i, out => do
    let out := out ++ (← elementText list i)
    if count == 0 then return out else join list between count (i + 1) (out ++ between)

def runConcat (args : List Value) : Task (List Value) := do
  let list ← listArgument args 1 { reads := true, measures := true }
  let size ← lengthOf list
  let between ← Argument.stringOr args 2 ByteArray.empty
  let first ← Argument.integerOr args 3 1
  let last ← Argument.integerOr args 4 size
  let count := (last.toInt - first.toInt + 1).toNat
  return [.string (← join list between count first ByteArray.empty)]

def runPack (args : List Value) : Task (List Value) := do
  let n := args.length
  let list := ({ capacity := 1 } : Table).setList 0 args
  let place ← Task.create (·.addTable ((list.setName "n" (.ofNat n))))
  return [.table place]

def collect (list : Value) : Nat → Int64 → List Value → Task (List Value)
  | 0, _, values => pure values.reverse
  | count + 1, i, values => do
    let v ← get list i
    collect list count (i + 1) (v :: values)

/-- The number of values that a function can give back. -/
def resultLimit : Nat := 1000000 - 100

def runUnpack (args : List Value) : Task (List Value) := do
  let list := Argument.get args 1
  let first ← Argument.integerOr args 2 1
  let last ← if Argument.isAbsent args 3 then lengthOf list else Argument.integer args 3
  if last < first then return []
  else
    let count := (last.toInt - first.toInt + 1).toNat
    if resultLimit < count then Task.failCaller "too many results to unpack"
    else collect list count first []

def sortLimit : Int64 := 2147483647

def runSort (args : List Value) : Task (List Value) := do
  let list ← listArgument args 1 { reads := true, writes := true, measures := true }
  let size ← lengthOf list
  if size ≤ 1 then return []
  else
    Argument.require (size < sortLimit) 1 "array too big"
    let order ← if Argument.isAbsent args 2 then pure .nil else Argument.function args 2
    let n := size.toNatClampNeg
    Sort.sortBetween { list, order } n 1 n
    return []

def run (f : TableFunction) (args : List Value) : Task (List Value) :=
  match f with
  | .concat => runConcat args
  | .insert => runInsert args
  | .move => runMove args
  | .pack => runPack args
  | .remove => runRemove args
  | .sort => runSort args
  | .unpack => runUnpack args

end ScriptHost.Lua.TableFunction
