import ScriptHost.Lua.Compiler.Expression
/-! Instructions for statements and whole functions. Local variables live in the registers from zero on in the
order of their declaration, and the values of a statement in the registers above them. -/
namespace ScriptHost.Lua.Compiler
open Text (Bytes)

inductive Target where
  | reg (r : Nat)
  | box (r : Nat)
  | upvalue (place : Nat)
  | element (object key : Source) (name : Option OperandName)
  deriving Inhabited

def assignTo (target : Target) (value : Source) (line : Nat) : Compile Unit :=
  match target with
  | .reg r => emitOnly (.move r value) line
  | .box r => emitOnly (.setBox r value) line
  | .upvalue place => emitOnly (.setUpvalue place value) line
  | .element object key name => emitOnly (.setIndex object key value) line [name]

def Source.isReadFrom (target : Target) : Source → Bool
  | .reg r => match target with
    | .reg t | .box t => r == t
    | _ => false
  | .box r => match target with
    | .reg t | .box t => r == t
    | _ => false
  | .upvalue place => match target with
    | .upvalue t => place == t
    | _ => false
  | .const _ => false

/-- A target whose operands are read from a copy if they come from the variable stored into. -/
def Target.readCopy (target : Target) (copy : Nat) : Target → Target
  | .element object key name =>
    .element (if Source.isReadFrom target object then .reg copy else object)
      (if Source.isReadFrom target key then .reg copy else key) name
  | other => other

def Target.conflictsWith (target : Target) : Target → Bool
  | .element object key _ => Source.isReadFrom target object || Source.isReadFrom target key
  | _ => false

def Target.asSource : Target → Source
  | .reg r => .reg r
  | .box r => .box r
  | .upvalue place => .upvalue place
  | .element _ _ _ => .const .nil

/-- Adds a variable to the targets before it. What they read from that variable is copied first. -/
def addVariable (target : Target) (before : List Target) (free : Nat) : Compile (List Target × Nat) := do
  if before.any target.conflictsWith then
    touch free
    emitOnly (.move free target.asSource) 0
    return (target :: before.map (Target.readCopy target free), free + 1)
  else return (target :: before, free)

/-- Instructions for the operands of targets. Returns the targets, the last one first, and the next free
register. -/
def targets (before : List Target) (free : Nat) : List Expr → Compile (List Target × Nat)
  | [] => return (before, free)
  | .local decl :: rest => do
    let r ← registerOf decl
    let target := if ← isCaptured decl then Target.box r else .reg r
    let (before, free) ← addVariable target before free
    targets before free rest
  | .upvalue place :: rest => do
    let (before, free) ← addVariable (.upvalue place) before free
    targets before free rest
  | .index object key _ :: rest => do
    let name ← nameOf object
    let o : Placed ← match object, key with
      | .upvalue place, .const (.string _) => pure { source := .upvalue place, free }
      | _, _ => expr .anywhere free object
    let k ← expr .anywhere o.free key
    targets (.element o.source k.source name :: before) k.free rest
  | _ :: rest => targets before free rest

/-- Stores the values of the registers below `top` into targets of which the last comes first. -/
def storeAll (line : Nat) : List Target → Nat → Compile Unit
  | [], _ => return ()
  | target :: rest, top => do
    assignTo target (.reg (top - 1)) line
    storeAll line rest (top - 1)

/-- Instructions for exactly so many values in the next registers. Missing values are nil, and those past the
count are dropped. -/
def adjusted (count free : Nat) : List Expr → Compile Unit
  | [] => do
    if count != 0 then
      touch (free + count - 1)
      emitOnly (.clear free count) 0
  | [e] => do
    if isOpen e then
      let _ ← expr (.values (some count)) free e
      if count != 0 then touch (free + count - 1)
    else
      let _ ← expr (.at free) free e
      if 1 < count then
        touch (free + count - 1)
        emitOnly (.clear (free + 1) (count - 1)) 0
  | e :: rest => do
    let _ ← expr (.at free) free e
    adjusted (count - 1) (free + 1) rest

/-- An assignment. With as many values as targets the last value goes to the last target at once. -/
def assign (level line : Nat) (assigned values : List Expr) : Compile Unit := do
  let (reversed, free) ← targets [] level assigned
  if values.length == assigned.length then
    match values.getLast?, reversed with
    | some last, target :: before =>
      for (value, i) in values.dropLast.zipIdx do
        let _ ← expr (.at (free + i)) (free + i) value
      let top := free + before.length
      match target with
      | .reg r => do
        let _ ← expr (.at r) top last
      | _ => do
        let v ← expr .anywhere top last
        assignTo target v.source line
      storeAll line before top
    | _, _ => return ()
  else
    adjusted assigned.length free values
    storeAll line reversed (free + assigned.length)

def declaresToClose : Stat → Bool
  | .local _ _ (some _) _ => true
  | _ => false

def placeLabel (label level : Nat) : Compile Unit := do
  let place ← here
  modify fun p => { p with labels := (label, place, level) :: p.labels }

def declare (level : Nat) (decls : List Nat) (values : List Expr) (toClose : Option Nat) (line : Nat) :
    Compile Nat := do
  adjusted decls.length level values
  match toClose with
  | some decl =>
    emitOnly (.markToClose (level + decls.idxOf decl) (← declName decl)) line
  | none => pure ()
  activateAll decls level

def returnValues (level : Nat) (values : List Expr) (mayReplace : Bool) (line : Nat) : Compile Unit := do
  match values with
  | [e] =>
    if isOpen e then
      let _ ← expr (.values none) level e
      let p ← get
      match mayReplace, p.code.back? with
      | true, some (.call base args _) =>
        set { p with code := p.code.pop.push (.tailCall base args) }
      | _, _ => emitOnly (.ret level none) line
    else
      let v ← expr .anywhere level e
      match v.source with
      | .reg r => emitOnly (.ret r (some 1)) line
      | source =>
        touch level
        emitOnly (.move level source) 0
        emitOnly (.ret level (some 1)) line
  | _ =>
    let count ← exprs level values
    emitOnly (.ret level count) line

mutual

/-- Instructions for a statement, with so many registers in use before it. Returns the number in use after
it. -/
def stat (level : Nat) : Stat → Compile Nat
  | .local decls values toClose line => declare level decls values toClose line
  | .localFunction decl place line => do
    activate decl level
    match ← placeOf decl with
    | .box r => do
      let v ← expr .anywhere (level + 1) (.function place)
      emitOnly (.setBox r v.source) line
    | _ => do
      let _ ← expr (.at level) level (.function place)
    return level + 1
  | .assign assigned values line => do
    assign level line assigned values
    return level
  | .call e => do
    let _ ← expr (.values (some 0)) level e
    return level
  | .block body last => do
    block level last body
    return level
  | .while cond body last breakLabel => do
    let start ← here
    let exits ← expr (.jump false) level cond
    block level last body
    emitOnly (.jump start) last
    patchHere exits.jumps
    placeLabel breakLabel level
    return level
  | .repeat body cond last breakLabel => do
    let start ← here
    let inner ← stats level body
    let again ← expr (.jump false) inner cond
    if body.any declaresToClose then
      emitOnly (.close level) last
      let exit ← emit (.jump 0) last
      patchHere again.jumps
      emitOnly (.close level) last
      emitOnly (.jump start) last
      patchHere [exit]
    else patch again.jumps start
    placeLabel breakLabel level
    return level
  | .cond clauses => do
    let exits ← clausesOf level clauses
    patchHere exits
    return level
  | .numeric decl start limit step body last doLine line breakLabel => do
    let _ ← expr (.at level) level start
    let _ ← expr (.at (level + 1)) (level + 1) limit
    match step with
    | some e =>
      let _ ← expr (.at (level + 2)) (level + 2) e
    | none =>
      touch (level + 2)
      emitOnly (.move (level + 2) (.const (.number (.int 1)))) doLine
    let entry ← emit (.prepareNumeric level 0) doLine
    let first ← here
    activate decl (level + 3)
    block (level + 4) last body
    emitOnly (.stepNumeric level first) line
    patchHere [entry]
    placeLabel breakLabel level
    return level
  | .generic decls values body last doLine line breakLabel => do
    adjusted 4 level values
    touch (level + 6)
    let entry ← emit (.prepareGeneric level 0) doLine
    let first ← here
    let inner ← activateAll decls (level + 4)
    block inner last body
    patchHere [entry]
    emitOnly (.callGeneric level decls.length) line
    emitOnly (.stepGeneric level first) line
    placeLabel breakLabel level
    emitOnly (.close level) line
    return level
  | .goto jump line => do
    let place ← emit (.leave 0 0) line
    modify fun p => { p with leaves := (place, jump) :: p.leaves }
    return level
  | .label label => do
    placeLabel label level
    return level
  | .return values mayReplace line => do
    returnValues level values mayReplace line
    return level
termination_by structural s => s

def stats (level : Nat) : List Stat → Compile Nat
  | [] => return level
  | s :: rest => do
    let level ← stat level s
    stats level rest
termination_by structural ss => ss

/-- Instructions for a block, at whose end its variables go out of scope. -/
def block (level last : Nat) : List Stat → Compile Unit
  | [] => return ()
  | s :: rest => do
    let inner ← stat level s
    let _ ← stats inner rest
    if declaresToClose s || rest.any declaresToClose then emitOnly (.close level) last
termination_by structural ss => ss

/-- Instructions for conditions with their blocks. Returns the jumps from the ends of blocks. -/
def clausesOf (level : Nat) : List (Expr × List Stat × Nat) → Compile (List Nat)
  | [] => return []
  | (cond, body, last) :: rest => do
    let skip ← expr (.jump false) level cond
    block level last body
    if rest.isEmpty then
      patchHere skip.jumps
      return []
    else
      let exit ← emit (.jump 0) last
      patchHere skip.jumps
      let exits ← clausesOf level rest
      return exit :: exits
termination_by structural cs => cs

end

def resolve (labels : List (Nat × Nat × Nat)) (jumps : List (Nat × Nat)) (code : Array Instr)
    (leave : Nat × Nat) : Array Instr :=
  let label := (jumps.lookup leave.2).getD 0
  match labels.lookup label with
  | some (target, level) => code.modify leave.1 fun _ => .leave target level
  | none => code

def function : Compile Unit := do
  let input ← read
  let level ← activateAll input.params 0
  let _ ← stats level input.body
  emitOnly (.ret level (some 0)) input.lastLine
  modify fun p => { p with code := p.leaves.foldl (resolve p.labels input.jumps) p.code }

end Compiler

/-- The compiled form of a function; `none` if it needs too many registers. -/
def Proto.compile? (input : Compiler.Input) : Option Proto := do
  let ((), p) ← (Compiler.function.run input).run {}
  return {
    source := input.source
    lineDefined := input.lineDefined
    isMain := input.isMain
    params := input.params.length
    isVararg := input.isVararg
    registers := p.registers
    code := p.code
    lines := p.lines
    names := p.names
    upvalues := input.upvalueNames
    children := input.children.map (·.1) }

end ScriptHost.Lua
