import ScriptHost.Lua.Code
/-! The names that are visible at a place of a script: local variables with their kinds, variables captured
from enclosing functions, labels, and jumps that still look for their label. -/
namespace ScriptHost.Lua.Parser
open Text (Bytes)

inductive VariableKind where
  | regular
  | readOnly
  | toClose
  /-- Its value is written in its place, and it has no declaration at run time. -/
  | known (value : Constant)
  /-- It belongs to a loop and has no name that a script can write. -/
  | hidden

structure LocalVariable where
  name : Bytes
  kind : VariableKind
  decl : Nat

structure CapturedVariable where
  name : Bytes
  capture : Capture
  readOnly : Bool

structure Label where
  name : Bytes
  line : Nat
  number : Nat
  /-- The number of local variables in scope at the label. -/
  level : Nat

structure PendingJump where
  name : Bytes
  line : Nat
  number : Nat
  /-- The number of local variables that stay in scope wherever it goes. -/
  level : Nat

structure Block where
  isLoop : Bool
  /-- The number of local variables in scope at its start. -/
  level : Nat
  /-- Whether leaving may have to close variables. -/
  closes : Bool
  labels : List Label := []
  pending : List PendingJump := []

/-- A function that has not ended. Inner variables and blocks come first. -/
structure FunctionScope where
  lineDefined : Nat
  isVararg : Bool
  declared : List LocalVariable := []
  /-- The number of variables that are declared and not yet in scope. -/
  awaiting : Nat := 0
  /-- The number of values that wait in registers while an expression is read. -/
  waiting : Nat := 0
  blocks : List Block := []
  params : List Nat := []
  declNames : Array Bytes := #[]
  captured : List Nat := []
  upvalues : Array CapturedVariable := #[]
  /-- The label numbers of jumps. -/
  jumps : List (Nat × Nat) := []
  labelCount : Nat := 0
  jumpCount : Nat := 0
  children : Array (Proto × Array Capture) := #[]

inductive Meaning where
  | local (decl : Nat) (readOnly : Bool)
  | upvalue (place : Nat) (readOnly : Bool)
  | known (value : Constant)
  | global

def VariableKind.isReadOnly : VariableKind → Bool
  | .regular => false
  | _ => true

namespace FunctionScope

def level (scope : FunctionScope) : Nat := scope.declared.length

/-- The number of registers that hold local variables and waiting values. -/
def registers (scope : FunctionScope) : Nat :=
  (scope.declared.filter fun v => !(v.kind matches .known _)).length + scope.waiting

def findLocal? (scope : FunctionScope) (name : Bytes) : Option Meaning :=
  (scope.declared.find? fun v => v.name == name).map fun v =>
    match v.kind with
    | .known value => .known value
    | kind => .local v.decl kind.isReadOnly

def findUpvalue? (scope : FunctionScope) (name : Bytes) : Option Meaning :=
  (scope.upvalues.findIdx? fun u => u.name == name).map fun place =>
    .upvalue place ((scope.upvalues[place]?.map (·.readOnly)).getD false)

def addUpvalue (scope : FunctionScope) (name : Bytes) (capture : Capture) (readOnly : Bool) :
    Meaning × FunctionScope :=
  (.upvalue scope.upvalues.size readOnly,
    { scope with upvalues := scope.upvalues.push ⟨name, capture, readOnly⟩ })

def markCaptured (scope : FunctionScope) (decl : Nat) : FunctionScope :=
  if scope.captured.contains decl then scope
  else { scope with captured := decl :: scope.captured }

def modifyBlock (scope : FunctionScope) (change : Block → Block) : FunctionScope :=
  match scope.blocks with
  | block :: outer => { scope with blocks := change block :: outer }
  | [] => scope

/-- Whether leaving the innermost block may have to close variables. -/
def closes (scope : FunctionScope) : Bool := (scope.blocks.head?.map (·.closes)).getD false

def enterBlock (scope : FunctionScope) (isLoop : Bool) : FunctionScope :=
  { scope with blocks := { isLoop, level := scope.level, closes := scope.closes } :: scope.blocks }

def findLabel? (scope : FunctionScope) (name : Bytes) : Option Label :=
  (scope.blocks.flatMap (·.labels)).find? fun label => label.name == name

def addPending (scope : FunctionScope) (name : Bytes) (line : Nat) : Nat × FunctionScope :=
  let jump : PendingJump := { name, line, number := scope.jumpCount, level := scope.level }
  (jump.number,
    { scope.modifyBlock fun b => { b with pending := b.pending ++ [jump] } with
      jumpCount := scope.jumpCount + 1 })

def addJump (scope : FunctionScope) (label : Nat) : Nat × FunctionScope :=
  (scope.jumpCount,
    { scope with
      jumps := (scope.jumpCount, label) :: scope.jumps, jumpCount := scope.jumpCount + 1 })

def nameAt (scope : FunctionScope) (level : Nat) : Bytes :=
  (scope.declared.reverse[level]?.map (·.name)).getD ByteArray.empty

/-- Adds a label and resolves the jumps of the innermost block that look for it. A jump may not enter the
scope of a variable: then the result is that jump. -/
def addLabel (scope : FunctionScope) (name : Bytes) (line level : Nat) :
    Except PendingJump (Nat × FunctionScope) :=
  let number := scope.labelCount
  let pending := (scope.blocks.head?.map (·.pending)).getD []
  let found := pending.filter fun jump => jump.name == name
  match found.find? fun jump => jump.level < level with
  | some jump => .error jump
  | none =>
    let scope := scope.modifyBlock fun b => { b with
      labels := b.labels ++ [⟨name, line, number, level⟩]
      pending := b.pending.filter fun jump => jump.name != name }
    .ok (number, { scope with
      jumps := found.map (fun jump => (jump.number, number)) ++ scope.jumps
      labelCount := number + 1 })

def dropVariables (scope : FunctionScope) : FunctionScope :=
  match scope.blocks with
  | block :: _ => { scope with declared := scope.declared.drop (scope.level - block.level) }
  | [] => scope

/-- Ends the innermost block. Its pending jumps go on in the block around it; without one, the first of them
has no label. -/
def closeBlock (scope : FunctionScope) : Except PendingJump FunctionScope :=
  match scope.blocks with
  | [] => .ok scope
  | [block] =>
    match block.pending with
    | jump :: _ => .error jump
    | [] => .ok { scope with blocks := [] }
  | block :: outer :: rest =>
    let moved := block.pending.map fun jump => { jump with level := block.level }
    .ok { scope with blocks := { outer with pending := outer.pending ++ moved } :: rest }

end FunctionScope

def upvalueLimit : Nat := 255

/-- The meaning of a name in the innermost of some functions. Variables of enclosing functions are captured on
the way. Fails with the line of a function that would capture too many. -/
def resolve (name : Bytes) (isInnermost : Bool) :
    List FunctionScope → Except Nat (Meaning × List FunctionScope)
  | [] => .ok (.global, [])
  | scope :: outer =>
    match scope.findLocal? name with
    | some (.local decl readOnly) =>
      .ok (.local decl readOnly, (if isInnermost then scope else scope.markCaptured decl) :: outer)
    | some meaning => .ok (meaning, scope :: outer)
    | none =>
      match scope.findUpvalue? name with
      | some meaning => .ok (meaning, scope :: outer)
      | none => do
        let (meaning, outer) ← resolve name false outer
        let capture? : Option (Capture × Bool) := match meaning with
          | .local decl readOnly => some (.local decl, readOnly)
          | .upvalue place readOnly => some (.upvalue place, readOnly)
          | _ => none
        match capture? with
        | some (capture, readOnly) =>
          if upvalueLimit ≤ scope.upvalues.size then throw scope.lineDefined
          let (meaning, scope) := scope.addUpvalue name capture readOnly
          return (meaning, scope :: outer)
        | none => return (meaning, scope :: outer)

end ScriptHost.Lua.Parser
