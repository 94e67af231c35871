import ScriptHost.Lua.Frame
import ScriptHost.Lua.Loop
/-! What one instruction does to a call of a script function. -/
namespace ScriptHost.Lua
open Text (Bytes)

inductive Effect where
  | next (world : World) (f : ScriptFrame)
  /-- An operation that may have to call functions. -/
  | work (f : ScriptFrame) (step : Step)
  /-- A call of a function; a deeper one counts as nested outside of scripts. -/
  | call (world : World) (f : ScriptFrame) (fn : Value) (args : List Value) (deeper : Bool)
  /-- A call that replaces the function. -/
  | replace (world : World) (f : ScriptFrame) (fn : Value) (args : List Value)
  | leave (world : World) (values : List Value)
  | fail (world : World) (f : ScriptFrame) (fault : Fault)

namespace ScriptFrame

@[inline] def quickArith (op : ArithOp) (a b : Value) : Option Value :=
  match a.number?, b.number? with
  | some x, some y =>
    match Number.arith op x y with
    | .ok n => some (.ofNumber n)
    | .error _ => none
  | _, _ => none

def quickCompare (op : CompareOp) (a b : Value) : Option Bool :=
  match op with
  | .equal =>
    match a, b with
    | .table x, .table y => if x == y then some true else none
    | _, _ => some (Value.same a b)
  | .less =>
    match a, b with
    | .int x, .int y => some (x < y)
    | .string x, .string y => some (Operation.lessBytes x y)
    | _, _ =>
      match a.number?, b.number? with
      | some x, some y => some (Number.less x y)
      | _, _ => none
  | .lessEqual =>
    match a, b with
    | .int x, .int y => some (x ≤ y)
    | .string x, .string y => some (!Operation.lessBytes y x)
    | _, _ =>
      match a.number?, b.number? with
      | some x, some y => some (Number.lessEqual x y)
      | _, _ => none

/-- The value that a table has for a key, if it has one and nothing else is to be done. -/
def quickIndex (w : World) (object key : Value) : Option Value :=
  match object with
  | .table place =>
    match Key.ofValue? key with
    | some tableKey =>
      let t := w.table place
      match t.get tableKey with
      | .nil => none
      | v => if t.movesHint tableKey then none else some v
    | none => none
  | _ => none

/-- The key of a table that can be set at once. -/
def quickKey? (w : World) (object key : Value) : Option (Nat × Key) :=
  match object with
  | .table place =>
    if (w.table place).metatable.isNone then (Key.ofValue? key).map fun k => (place, k) else none
  | _ => none

/-- The texts of values joined, if all of them have one. -/
def quickConcat (values : List Value) : Option Bytes :=
  values.foldl (fun joined v =>
    match joined, v.toBytes? with
    | some s, some t => some (s ++ t)
    | _, _ => none) (some ByteArray.empty)

def operate (f : ScriptFrame) (w : World) (resume : Resume) (t : Task Value) : Effect :=
  .work { f with resume } (t (fun v w => .done w [v]) w)

def decideBy (f : ScriptFrame) (w : World) (resume : Resume) (t : Task Bool) : Effect :=
  .work { f with resume } (t (fun b w => .done w [.bool b]) w)

/-- Closes the latest value whose register is not below a level; `done` follows when there is none. -/
def closeFrom (f : ScriptFrame) (w : World) (level : Nat) (done : World → ScriptFrame → Effect) :
    Effect :=
  match f.toClose with
  | (r, v) :: rest =>
    if level ≤ r then
      let handler := w.handler v "__close"
      .call w { f with toClose := rest, resume := .again } handler [v, .nil] true
    else done w f
  | [] => done w f

def markToClose (f : ScriptFrame) (w : World) (r : Nat) (name : Bytes) (done : ScriptFrame → ScriptFrame) :
    Effect :=
  let v := f.register r
  if !v.isTrue then .next w (done f)
  else if (w.handler v "__close").isNil then
    .fail w f (.raised ("variable '".toUTF8 ++ name ++ "' got a non-closable value".toUTF8))
  else .next w (done { f with toClose := (r, v) :: f.toClose })

def finishWith (f : ScriptFrame) (w : World) (values : List Value) : Effect :=
  match f.toClose with
  | [] => .leave w values
  | _ => ({ f with returning := some values }).closeFrom w 0 fun w _ => .leave w values

/-- Starts a counting loop, or goes past it. -/
def startLoop (f : ScriptFrame) (w : World) (base target : Nat) : Effect :=
  match Loop.start (f.register base) (f.register (base + 1)) (f.register (base + 2)) with
  | .skip => .next w (f.jump target)
  | .zeroStep => .fail w f (.raised "'for' step is zero".toUTF8)
  | .wrong part v =>
    .fail w f (.raised ("bad 'for' ".toUTF8 ++ part.toUTF8 ++ " (number expected, got ".toUTF8 ++
      w.typeNameOf v ++ ")".toUTF8))
  | .run first bound step =>
    .next w { f with
      registers := fill f.registers base 4 [first, bound, step, first], pc := f.pc + 1 }

def stepLoop (f : ScriptFrame) (w : World) (base target : Nat) : Effect :=
  match Loop.next? (f.register base) (f.register (base + 1)) (f.register (base + 2)) with
  | some (index, bound) =>
    .next w { f with
      registers := putAt (putAt (putAt f.registers base index) (base + 1) bound) (base + 3) index
      pc := target }
  | none => .next w f.next

def captureAll (f : ScriptFrame) (captures : Array CaptureSource) : Array Nat :=
  captures.map fun
    | .box r => (f.boxes.lookup r).getD 0
    | .upvalue place => f.captured[place]?.getD 0

def setCell (w : World) (cell : Nat) (v : Value) : World :=
  { w with cells := putAt w.cells cell v }

def execute (w : World) (f : ScriptFrame) (instr : Instr) : Effect :=
  match instr with
  | .move dst src => .next w (f.put dst (f.get w src))
  | .clear dst count =>
    .next w { f with registers := fill f.registers dst count [], pc := f.pc + 1 }
  | .makeBox r =>
    let (cell, w) := w.addCell (f.register r)
    .next w { f with boxes := (r, cell) :: f.boxes.filter (·.1 != r), pc := f.pc + 1 }
  | .setBox r src =>
    let v := f.get w src
    .next (setCell w ((f.boxes.lookup r).getD 0) v) f.next
  | .setUpvalue place src =>
    let v := f.get w src
    .next (setCell w (f.captured[place]?.getD 0) v) f.next
  | .index dst object key =>
    let o := f.get w object
    let k := f.get w key
    match quickIndex w o k with
    | some v => .next w (f.put dst v)
    | none => f.operate w (.store dst) (Operation.index o k (some 0))
  | .setIndex object key value =>
    let o := f.get w object
    let k := f.get w key
    let v := f.get w value
    match quickKey? w o k with
    | some (place, tableKey) => .next (w.modifyTable place (·.set tableKey v)) f.next
    | none =>
      .work { f with resume := .ignore }
        (Operation.setIndex o k v (some 0) (fun _ w => .done w []) w)
  | .lookup dst object name =>
    let o := f.get w object
    let f := { f with registers := putAt f.registers (dst + 1) o }
    match quickIndex w o (.string name) with
    | some v => .next w (f.put dst v)
    | none => f.operate w (.store dst) (Operation.index o (.string name) (some 0))
  | .arith op dst a b =>
    let x := f.get w a
    let y := f.get w b
    match quickArith op x y with
    | some v => .next w (f.put dst v)
    | none => f.operate w (.store dst) (Operation.arith op x y)
  | .unary op dst a =>
    let x := f.get w a
    match op, x with
    | .not, _ => .next w (f.put dst (.bool !x.isTrue))
    | _, _ => f.operate w (.store dst) (Operation.unary op x)
  | .concat dst first count =>
    let values := f.collect first (some count)
    match quickConcat values with
    | some s => .next w (f.put dst (.string s))
    | none => f.operate w (.store dst) (Operation.concat values)
  | .compare op dst a b negated =>
    let x := f.get w a
    let y := f.get w b
    match quickCompare op x y with
    | some r => .next w (f.put dst (.bool (r != negated)))
    | none => f.decideBy w (.test dst negated) (Operation.compare op x y)
  | .jumpCompare op a b sense target =>
    let x := f.get w a
    let y := f.get w b
    match quickCompare op x y with
    | some r => .next w (if r == sense then f.jump target else f.next)
    | none => f.decideBy w (.branch sense target) (Operation.compare op x y)
  | .jumpIf src sense target =>
    .next w (if (f.get w src).isTrue == sense then f.jump target else f.next)
  | .keepIf dst src sense target =>
    let v := f.get w src
    if v.isTrue == sense then
      .next w { f with registers := putAt f.registers dst v, pc := target }
    else .next w f.next
  | .jump target => .next w (f.jump target)
  | .leave target level => f.closeFrom w level fun w f => .next w (f.jump target)
  | .call base args results =>
    let callee := f.register base
    let args := f.collect (base + 1) args
    .call w { f with resume := .into base results } callee args false
  | .tailCall base args => .replace w f (f.register base) (f.collect (base + 1) args)
  | .ret first count =>
    match f.returning with
    | some values => f.finishWith w values
    | none => f.finishWith w (f.collect first count)
  | .varargs dst count => .next w (f.putResults dst count f.extra)
  | .closure dst place captures =>
    match f.proto.children[place]? with
    | some proto =>
      let (function, w) := w.addFunction (.closure proto (f.captureAll captures))
      .next w (f.put dst (.function function))
    | none => .next w f.next
  | .newTable dst items keys =>
    let t : Table := {
      list := Array.replicate items Value.nil, capacity := Table.capacityFor keys, hint := items }
    let (place, w) := w.addTable t
    .next w (f.put dst (.table place))
  | .append table first count start open_ =>
    let values := f.collect first (if open_ then none else some count)
    match f.register table with
    | .table place => .next (w.modifyTable place (·.setList start values)) f.next
    | _ => .next w f.next
  | .prepareNumeric base target => f.startLoop w base target
  | .stepNumeric base target => f.stepLoop w base target
  | .prepareGeneric base target =>
    f.markToClose w (base + 3) "(for state)".toUTF8 (·.jump target)
  | .callGeneric base count =>
    let iterator := f.register base
    let args := [f.register (base + 1), f.register (base + 2)]
    .call w { f with resume := .into (base + 4) (some count) } iterator args true
  | .stepGeneric base target =>
    match f.register (base + 4) with
    | .nil => .next w f.next
    | v =>
      .next w { f with registers := putAt f.registers (base + 2) v, pc := target }
  | .markToClose r name => f.markToClose w r name (·.next)
  | .close level => f.closeFrom w level fun w f => .next w f.next

end ScriptFrame
end ScriptHost.Lua
