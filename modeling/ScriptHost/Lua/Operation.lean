import ScriptHost.Lua.Task
/-! The operations of the language on any values. Where a value does not support an operation, its metatable
may say what to do. -/
namespace ScriptHost.Lua.Operation
open Text (Bytes)

/-- The number of tables that an access may go through one after the other. -/
def chainLimit : Nat := 2000

def indexFrom (operand : Option Nat) : Nat → Value → Value → Task Value
  | 0, _, _ => Task.failHere "'__index' chain too long; possibly a loop"
  | fuel + 1, object, key => fun k w =>
    let follow (handler : Value) (w : World) : Step :=
      match handler with
      | .function _ => .call w handler [object, key] fun results w => k (results.headD .nil) w
      | _ => indexFrom none fuel handler key k w
    match object with
    | .table place =>
      match Key.ofValue? key with
      | some tableKey =>
        let v := (w.table place).get tableKey
        match v with
        | .nil =>
          match (w.table place).metatable with
          | none => k .nil (w.modifyTable place (·.noteRead tableKey))
          | some rules =>
            match (w.table rules).getName "__index" with
            | .nil => k .nil (w.modifyTable place (·.noteRead tableKey))
            | handler => follow handler w
        | _ =>
          if (w.table place).movesHint tableKey then k v (w.modifyTable place (·.noteRead tableKey))
          else k v w
      | none =>
        match w.handler object "__index" with
        | .nil => k .nil w
        | handler => follow handler w
    | _ =>
      match w.handler object "__index" with
      | .nil => .fail w (.unsuitable "index" object operand)
      | handler => follow handler w

def index (object key : Value) (operand : Option Nat) : Task Value :=
  indexFrom operand chainLimit object key

def rawSet (place : Nat) (key value : Value) : Task Unit :=
  match Key.ofValue? key with
  | some tableKey => Task.change fun w => w.modifyTable place (·.set tableKey value)
  | none =>
    if key.isNil then Task.failHere "table index is nil" else Task.failHere "table index is NaN"

def setIndexFrom (operand : Option Nat) : Nat → Value → Value → Value → Task Unit
  | 0, _, _, _ => Task.failHere "'__newindex' chain too long; possibly a loop"
  | fuel + 1, object, key, value => fun k w =>
    let follow (handler : Value) (w : World) : Step :=
      match handler with
      | .function _ => .call w handler [object, key, value] fun _ w => k () w
      | _ => setIndexFrom none fuel handler key value k w
    match object with
    | .table place =>
      match (w.table place).metatable with
      | none => rawSet place key value k w
      | some rules =>
        let present := match Key.ofValue? key with
          | some tableKey => !((w.table place).get tableKey).isNil
          | none => false
        if present then rawSet place key value k w
        else
          match (w.table rules).getName "__newindex" with
          | .nil => rawSet place key value k w
          | handler => follow handler w
    | _ =>
      match w.handler object "__newindex" with
      | .nil => .fail w (.unsuitable "index" object operand)
      | handler => follow handler w

def setIndex (object key value : Value) (operand : Option Nat) : Task Unit :=
  setIndexFrom operand chainLimit object key value

/-- The handler that the first of two values has for an event, or else the second. -/
def handlerOfEither (event : String) (a b : Value) : Task Value := do
  match ← Task.read (·.handler a event) with
  | .nil => Task.read (·.handler b event)
  | handler => return handler

def arithEvent : ArithOp → String
  | .add => "__add"
  | .sub => "__sub"
  | .mul => "__mul"
  | .mod => "__mod"
  | .pow => "__pow"
  | .div => "__div"
  | .floorDiv => "__idiv"
  | .bitAnd => "__band"
  | .bitOr => "__bor"
  | .bitXor => "__bxor"
  | .shiftLeft => "__shl"
  | .shiftRight => "__shr"

def isBitwise : ArithOp → Bool
  | .bitAnd | .bitOr | .bitXor | .shiftLeft | .shiftRight => true
  | _ => false

/-- Fails because of the operand that is no number: the second, unless the first is none. -/
def failOperand {α : Type} (action : String) (a b : Value) : Task α :=
  match a.number? with
  | some _ => Task.fail (.unsuitable action b (some 1))
  | none => Task.fail (.unsuitable action a (some 0))

def failArith {α : Type} : ArithFault → Task α
  | .divideByZero => Task.failHere "attempt to divide by zero"
  | .remainderByZero => Task.failHere "attempt to perform 'n%0'"
  | .noInteger second => Task.fail (.notIntegral (some (if second then 1 else 0)))

def arithByHandler (op : ArithOp) (a b : Value) (fallback : Task Value) : Task Value := do
  match ← handlerOfEither (arithEvent op) a b with
  | .nil => fallback
  | handler => Task.callFirst handler [a, b]

def arith (op : ArithOp) (a b : Value) : Task Value :=
  let action := if isBitwise op then "perform bitwise operation on" else "perform arithmetic on"
  match a.number?, b.number? with
  | some x, some y =>
    match Number.arith op x y with
    | .ok n => pure (.ofNumber n)
    | .error (.noInteger second) =>
      arithByHandler op a b (Task.fail (.notIntegral (some (if second then 1 else 0))))
    | .error fault => failArith fault
  | _, _ => arithByHandler op a b (failOperand action a b)

def length (v : Value) : Task Value := do
  match v with
  | .string s => return .ofNat s.size
  | _ =>
    match ← Task.read (·.handler v "__len"), v with
    | .nil, .table place =>
      Task.create fun w =>
        let (n, hint) := (w.table place).border
        (Value.ofNat n, w.modifyTable place fun t => { t with hint })
    | .nil, _ => Task.fail (.unsuitable "get length of" v (some 0))
    | handler, _ => Task.callFirst handler [v, v]

def unary (op : UnaryOp) (v : Value) : Task Value :=
  match op with
  | .not => pure (.bool !v.isTrue)
  | .length => length v
  | .negate =>
    match v with
    | .int i => pure (.int (-i))
    | .float x => pure (.float (-x))
    | _ => do
      match ← Task.read (·.handler v "__unm") with
      | .nil => Task.fail (.unsuitable "perform arithmetic on" v (some 0))
      | handler => Task.callFirst handler [v, v]
  | .complement => do
    match v.number? with
    | some n =>
      match n.toInt64? with
      | some i => return .int (~~~i)
      | none => Task.fail (.notIntegral (some 0))
    | none =>
      match ← Task.read (·.handler v "__bnot") with
      | .nil => Task.fail (.unsuitable "perform bitwise operation on" v (some 0))
      | handler => Task.callFirst handler [v, v]

/-- Whether two values are equal. Different tables may have a handler that says so. -/
def equal (a b : Value) : Task Bool :=
  match a, b with
  | .table x, .table y =>
    if x == y then pure true
    else do
      match ← handlerOfEither "__eq" a b with
      | .nil => return false
      | handler => return (← Task.callFirst handler [a, b]).isTrue
  | _, _ => pure (Value.same a b)

def lessBytes (a b : Bytes) : Bool := go (min a.size b.size) 0
where
  /-- Compares from a place on. -/
  go : Nat → Nat → Bool
    | 0, _ => a.size < b.size
    | count + 1, i =>
      if h : i < a.size ∧ i < b.size then
        if a[i] == b[i] then go count (i + 1) else a[i] < b[i]
      else a.size < b.size

def failOrder {α : Type} (a b : Value) : Task α := do
  let x ← Task.read (·.typeNameOf a)
  let y ← Task.read (·.typeNameOf b)
  if x == y then Task.fail (.raised ("attempt to compare two ".toUTF8 ++ x ++ " values".toUTF8))
  else Task.fail (.raised ("attempt to compare ".toUTF8 ++ x ++ " with ".toUTF8 ++ y))

def orderByHandler (event : String) (a b : Value) (fallback : Task Bool) : Task Bool := do
  match ← handlerOfEither event a b with
  | .nil => fallback
  | handler => return (← Task.callFirst handler [a, b]).isTrue

def less (a b : Value) : Task Bool :=
  match a.number?, b.number?, a, b with
  | some x, some y, _, _ => pure (Number.less x y)
  | _, _, .string x, .string y => pure (lessBytes x y)
  | _, _, _, _ => orderByHandler "__lt" a b (failOrder a b)

/-- Whether one value is at most another. Without a handler of its own it is if the other is not less. -/
def lessEqual (a b : Value) : Task Bool :=
  match a.number?, b.number?, a, b with
  | some x, some y, _, _ => pure (Number.lessEqual x y)
  | _, _, .string x, .string y => pure (!lessBytes y x)
  | _, _, _, _ =>
    orderByHandler "__le" a b do
      match ← handlerOfEither "__lt" b a with
      | .nil => failOrder a b
      | handler => return !(← Task.callFirst handler [b, a]).isTrue

def compare (op : CompareOp) (a b : Value) : Task Bool :=
  match op with
  | .equal => equal a b
  | .less => less a b
  | .lessEqual => lessEqual a b

/-- Values joined from the right, two at a time. The first comes last in the list, and so do the places of the
operands. -/
def concatOnto (joined : Value) : Nat → List Value → Task Value
  | _, [] => pure joined
  | place, v :: before =>
    match v.toBytes?, joined.toBytes? with
    | some x, some y => concatOnto (.string (x ++ y)) (place - 1) before
    | left, _ => do
      match ← handlerOfEither "__concat" v joined with
      | .nil =>
        match left with
        | some _ => Task.fail (.unsuitable "concatenate" joined (some place))
        | none => Task.fail (.unsuitable "concatenate" v (some (place - 1)))
      | handler =>
        let result ← Task.callFirst handler [v, joined]
        concatOnto result (place - 1) before

def concat (values : List Value) : Task Value :=
  match values.reverse with
  | [] => pure (.string ByteArray.empty)
  | last :: before => concatOnto last before.length before

end ScriptHost.Lua.Operation
