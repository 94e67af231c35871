import ScriptHost.Lua.Compiler.Basic
/-! Instructions for expressions. Temporary values go into the registers above those in use. An operand that
is a local variable is read when its operation runs, not before. -/
namespace ScriptHost.Lua.Compiler
open Text (Bytes)

inductive Want where
  /-- It goes into a register. -/
  | at (dst : Nat)
  /-- It may stay where it is, or goes into the next register. -/
  | anywhere
  /-- So many values go into the next registers, or all open ones. Only expressions that can have any number
  of values are asked for them. -/
  | values (count : Option Nat)
  /-- Only its truth counts: a jump happens if it is as given. -/
  | jump (sense : Bool)

/-- What became of the value: where it is, the next free register, and jumps that still need a target. -/
structure Placed where
  source : Source := .const .nil
  free : Nat
  jumps : List Nat := []

/-- A value that was computed but not put where it is wanted. -/
inductive Computed where
  /-- It can be read where it is. -/
  | known (source : Source)
  /-- It is in the next register. -/
  | fixed
  /-- An instruction puts it into a register. -/
  | movable (instr : Nat → Instr) (line : Nat) (names : List (Option OperandName))

def store (dst free : Nat) : Computed → Compile Unit
  | .known source => do touch dst; emitOnly (.move dst source) 0
  | .fixed => do
    touch dst
    if dst != free then emitOnly (.move dst (.reg free)) 0
  | .movable instr line names => do touch dst; emitOnly (instr dst) line names

def finish (want : Want) (free : Nat) (value : Computed) : Compile Placed := do
  match want, value with
  | .at dst, _ => store dst free value; return { free }
  | .values _, _ => store free free value; return { free }
  | .anywhere, .known source => return { source, free }
  | .anywhere, _ => store free free value; return { source := .reg free, free := free + 1 }
  | .jump sense, .known (.const c) =>
    if c.isTrue == sense then return { free, jumps := [← emit (.jump 0) 0] } else return { free }
  | .jump sense, .known source => return { free, jumps := [← emit (.jumpIf source sense 0) 0] }
  | .jump sense, _ =>
    store free free value
    return { free, jumps := [← emit (.jumpIf (.reg free) sense 0) 0] }

def finishCall (want : Want) (free : Nat) (args : Option Nat) (line : Nat) (name : Option OperandName) :
    Compile Placed := do
  match want with
  | .values count => emitOnly (.call free args count) line [name]; return { free }
  | _ =>
    emitOnly (.call free args (some 1)) line [name]
    finish want free .fixed

/-- Whether an expression can have any number of values. -/
def isOpen : Expr → Bool
  | .call _ _ _ | .method _ _ _ _ _ | .vararg => true
  | _ => false

def isConcat : Expr → Bool
  | .binary .concat _ _ _ => true
  | .single e => isConcat e
  | _ => false

/-- Takes back the concatenation that was emitted last. -/
def takeConcat : Compile (Nat × Nat × List (Option OperandName)) := do
  let p ← get
  let count := match p.code.back? with
    | some (.concat _ _ count) => count
    | _ => 0
  let line := p.lines.back?.getD 0
  let names := p.names.back?.getD []
  modify fun p => { p with code := p.code.pop, lines := p.lines.pop, names := p.names.pop }
  return (count, line, names)

/-- The register into which a value has to go that may come from two places. -/
def Want.destination (want : Want) (free : Nat) : Nat :=
  match want with
  | .at dst => dst
  | _ => free

/-- The number of list items of a table that are collected before they are stored. -/
def itemsPerAppend : Nat := 50

mutual

def expr (want : Want) (free : Nat) : Expr → Compile Placed
  | .const c => finish want free (.known (.const c))
  | .local decl => do finish want free (.known (← placeOf decl))
  | .upvalue place => finish want free (.movable (.move · (.upvalue place)) 0 [])
  | .vararg =>
    match want with
    | .values count => do
      touch (free + count.getD 1)
      emitOnly (.varargs free count) 0
      return { free }
    | _ => finish want free (.movable (.varargs · (some 1)) 0 [])
  | .function place => do
    let captures := ((← read).children[place]?.map (·.2)).getD #[]
    let sources ← captures.mapM captureSource
    finish want free (.movable (.closure · place sources) 0 [])
  | .index object key line => do
    let name ← nameOf object
    let o : Placed ← match object, key with
      | .upvalue place, .const (.string _) => pure { source := .upvalue place, free }
      | _, _ => expr .anywhere free object
    let k ← expr .anywhere o.free key
    finish want free (.movable (.index · o.source k.source) line [name])
  | .call fn args line => do
    let name ← nameOf fn
    let _ ← expr (.at free) free fn
    let count ← exprs (free + 1) args
    finishCall want free count line name
  | .method object name lookupLine args line => do
    let objectName ← nameOf object
    let o ← expr .anywhere free object
    touch (free + 1)
    emitOnly (.lookup free o.source name) lookupLine [objectName]
    let count ← exprs (free + 2) args
    finishCall want free (count.map (· + 1)) line (some (.method name))
  | .table list line => do
    touch free
    let table ← emit (.newTable free 0 0) line
    let (items, keys) ← fields free line 0 0 0 list
    modify fun p => { p with code := p.code.modify table fun _ => .newTable free items keys }
    finish want free .fixed
  | .unary op e line => do
    match op, want with
    | .not, .jump sense => expr (.jump !sense) free e
    | _, _ =>
      let name ← nameOf e
      let a ← expr .anywhere free e
      finish want free (.movable (.unary op · a.source) line [name])
  | .binary (.arith op) left right line => do
    let names := [← nameOf left, ← nameOf right]
    let a ← expr .anywhere free left
    let b ← expr .anywhere a.free right
    finish want free (.movable (.arith op · a.source b.source) line names)
  | .binary .concat left right line => do
    let name ← nameOf left
    let rightName ← nameOf right
    let _ ← expr (.at free) free left
    let _ ← expr (.at (free + 1)) (free + 1) right
    if isConcat right then
      let (count, line, names) ← takeConcat
      finish want free (.movable (.concat · free (count + 1)) line (name :: names))
    else finish want free (.movable (.concat · free 2) line [name, rightName])
  | .binary (.compare op exchanged negated) left right line => do
    let l ← expr .anywhere free left
    let r ← expr .anywhere l.free right
    let (a, b) := if exchanged then (r.source, l.source) else (l.source, r.source)
    match want with
    | .jump sense => return { free, jumps := [← emit (.jumpCompare op a b (sense != negated) 0) line] }
    | _ => finish want free (.movable (.compare op · a b negated) line [])
  | .and left right => do
    match want with
    | .jump sense =>
      let l ← expr (.jump false) free left
      let r ← expr (.jump sense) free right
      if sense then
        patchHere l.jumps
        return r
      else return { free, jumps := l.jumps ++ r.jumps }
    | _ =>
      let dst := want.destination free
      let l ← expr .anywhere free left
      touch dst
      let keep ← emit (.keepIf dst l.source false 0) 0
      let _ ← expr (.at dst) free right
      patchHere [keep]
      if want matches .anywhere then return { source := .reg free, free := free + 1 } else return { free }
  | .or left right => do
    match want with
    | .jump sense =>
      let l ← expr (.jump true) free left
      let r ← expr (.jump sense) free right
      if sense then return { free, jumps := l.jumps ++ r.jumps }
      else
        patchHere l.jumps
        return r
    | _ =>
      let dst := want.destination free
      let l ← expr .anywhere free left
      touch dst
      let keep ← emit (.keepIf dst l.source true 0) 0
      let _ ← expr (.at dst) free right
      patchHere [keep]
      if want matches .anywhere then return { source := .reg free, free := free + 1 } else return { free }
  | .single e =>
    match want with
    | .values _ => expr (.at free) free e
    | _ => expr want free e
termination_by structural e => e

/-- Instructions for expressions whose values go into the next registers. The count of values is `none` if
those of the last expression are open. -/
def exprs (free : Nat) : List Expr → Compile (Option Nat)
  | [] => return some 0
  | [e] => do
    if isOpen e then
      let _ ← expr (.values none) free e
      return none
    else
      let _ ← expr (.at free) free e
      return some 1
  | e :: rest => do
    let _ ← expr (.at free) free e
    let count ← exprs (free + 1) rest
    return count.map (· + 1)
termination_by structural es => es

/-- Instructions for the fields of the table in a register. List items wait in the registers above it.
Returns the numbers of list items and of other fields. -/
def fields (table line waiting stored keys : Nat) :
    List (Option Expr × Expr × Nat) → Compile (Nat × Nat)
  | [] => do
    if waiting != 0 then emitOnly (.append table (table + 1) waiting stored false) line
    return (stored + waiting, keys)
  | (some key, value, line) :: rest => do
    let free := table + 1 + waiting
    let k ← expr .anywhere free key
    let v ← expr .anywhere k.free value
    emitOnly (.setIndex (.reg table) k.source v.source) line [none]
    fields table line waiting stored (keys + 1) rest
  | [(none, value, line)] => do
    let free := table + 1 + waiting
    if isOpen value then
      let _ ← expr (.values none) free value
      emitOnly (.append table (table + 1) waiting stored true) line
      return (stored + waiting, keys)
    else
      let _ ← expr (.at free) free value
      emitOnly (.append table (table + 1) (waiting + 1) stored false) line
      return (stored + waiting + 1, keys)
  | (none, value, line) :: rest => do
    let free := table + 1 + waiting
    let _ ← expr (.at free) free value
    if waiting + 1 == itemsPerAppend then
      emitOnly (.append table (table + 1) itemsPerAppend stored false) line
      fields table line 0 (stored + itemsPerAppend) keys rest
    else fields table line (waiting + 1) stored keys rest
termination_by structural list => list

end

end ScriptHost.Lua.Compiler
