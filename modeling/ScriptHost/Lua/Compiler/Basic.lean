import ScriptHost.Lua.Code
/-! What is known while a function is compiled: its declarations and captured variables on one side, and the
instructions so far with the places that still lack a target on the other. -/
namespace ScriptHost.Lua.Compiler
open Text (Bytes)

structure Input where
  source : Bytes
  lineDefined : Nat
  /-- The line of the end of the function. -/
  lastLine : Nat
  isMain : Bool
  params : List Nat
  isVararg : Bool
  body : List Stat
  /-- The names of the declarations, by number. -/
  declNames : Array Bytes
  /-- The declarations that functions inside this one capture. -/
  captured : List Nat
  upvalueNames : Array Bytes
  /-- The label that each jump goes to. -/
  jumps : List (Nat × Nat)
  /-- The functions inside this one, with the variables that they capture. -/
  children : Array (Proto × Array Capture)

structure Progress where
  code : Array Instr := #[]
  lines : Array Nat := #[]
  names : Array (List (Option OperandName)) := #[]
  registers : Nat := 2
  /-- The registers of the declarations. -/
  places : List (Nat × Nat) := []
  /-- The instruction at each label, and the number of registers in use there. -/
  labels : List (Nat × Nat × Nat) := []
  /-- The instructions that jump to labels, with their jumps. -/
  leaves : List (Nat × Nat) := []

/-- Compiling fails only if a function needs too many registers. -/
abbrev Compile (α : Type) := ReaderT Input (StateT Progress Option) α

/-- The first number of registers that is too large. -/
def registerLimit : Nat := 255

def touch (r : Nat) : Compile Unit := do
  if registerLimit ≤ r + 1 then failure
  else modify fun p => { p with registers := max p.registers (r + 1) }

def emit (instr : Instr) (line : Nat) (names : List (Option OperandName) := []) : Compile Nat := do
  let place := (← get).code.size
  modify fun p => { p with
    code := p.code.push instr, lines := p.lines.push line, names := p.names.push names }
  return place

def emitOnly (instr : Instr) (line : Nat) (names : List (Option OperandName) := []) : Compile Unit := do
  let _ ← emit instr line names

def here : Compile Nat := return (← get).code.size

def retarget (target : Nat) : Instr → Instr
  | .jumpCompare op a b sense _ => .jumpCompare op a b sense target
  | .jumpIf src sense _ => .jumpIf src sense target
  | .keepIf dst src sense _ => .keepIf dst src sense target
  | .jump _ => .jump target
  | .prepareNumeric base _ => .prepareNumeric base target
  | .prepareGeneric base _ => .prepareGeneric base target
  | instr => instr

def patch (places : List Nat) (target : Nat) : Compile Unit :=
  modify fun p => { p with
    code := places.foldl (fun code i => code.modify i (retarget target)) p.code }

def patchHere (places : List Nat) : Compile Unit := do patch places (← here)

def isCaptured (decl : Nat) : Compile Bool := return (← read).captured.contains decl

/-- Gives a declaration its register. Captured variables get a new box around the value in it. -/
def activate (decl r : Nat) : Compile Unit := do
  touch r
  modify fun p => { p with places := (decl, r) :: p.places }
  if ← isCaptured decl then emitOnly (.makeBox r) 0

/-- Gives declarations consecutive registers, and returns the one after them. -/
def activateAll : List Nat → Nat → Compile Nat
  | [], r => return r
  | decl :: rest, r => do
    activate decl r
    activateAll rest (r + 1)

def registerOf (decl : Nat) : Compile Nat := return ((← get).places.lookup decl).getD 0

def placeOf (decl : Nat) : Compile Source := do
  let r ← registerOf decl
  return if ← isCaptured decl then .box r else .reg r

def declName (decl : Nat) : Compile Bytes :=
  return (← read).declNames[decl]?.getD ByteArray.empty

def upvalueName (place : Nat) : Compile Bytes :=
  return (← read).upvalueNames[place]?.getD ByteArray.empty

def captureSource : Capture → Compile CaptureSource
  | .upvalue place => return .upvalue place
  | .local decl => return .box (← registerOf decl)

def keyName : Expr → Bytes
  | .const (.string s) => s
  | .const (.number (.int i)) =>
    if 0 ≤ i && i ≤ 255 then "integer index".toUTF8 else "?".toUTF8
  | _ => "?".toUTF8

def nameIfPlain : Expr → Compile Bytes
  | .local decl => declName decl
  | .upvalue place => upvalueName place
  | _ => return ByteArray.empty

def nameOf : Expr → Compile (Option OperandName)
  | .local decl => return some (.local (← declName decl))
  | .upvalue place => return some (.upvalue (← upvalueName place))
  | .const (.string s) => return some (.constant s)
  | .index object key _ => do
    if (← nameIfPlain object) == environmentName then return some (.global (keyName key))
    else return some (.field (keyName key))
  | .single e => nameOf e
  | _ => return none

end ScriptHost.Lua.Compiler
