import ScriptHost.Config.Basic
import ScriptHost.Diagnostics
import ScriptHost.Files
import ScriptHost.Registry
import ScriptHost.Source.Expression
import ScriptHost.Source.Reader
/-! A host with an interpreter and a stack of values. Errors of scripts are reported and leave the host as it
was; after a panic or an error that cannot be trusted an operation fails. -/
namespace ScriptHost
open Text (Bytes)

structure Host where
  config : Config
  registry : Registry
  sink : DiagnosticSink := .logging
  /-- Where scripts are read from. -/
  files : FileSource
  /-- The directory that scripts themselves read from. -/
  directory : FileTree := ⟨[]⟩
  clock : Lua.ClockReading := {}
  interpreter : Option Lua.Interpreter := none
  /-- The values that the host works with, the latest first. -/
  stack : List Lua.HostValue := []
  /-- The number of interpreters so far. -/
  generation : Nat := 0
  /-- The events of the log, the latest first. -/
  log : List LogEvent := []
  /-- The reports that the sink has kept, the latest first. -/
  reports : List Diagnostic := []

inductive Interruption where
  /-- An error that the operation returns. -/
  | failed (error : HostError)
  /-- A panic that leaves the operation and goes on in its caller. -/
  | unwound (payload : Lua.PanicPayload)
  deriving DecidableEq, Repr

inductive Phase where
  | parsing
  | evaluating
  deriving DecidableEq, Repr

def Phase.word : Phase → String
  | .parsing => "parsing"
  | .evaluating => "evaluating"

/-- An operation of a host. It changes the host even if it ends early. -/
abbrev Operation (α : Type) := ExceptT Interruption (StateM Host) α

namespace Host

def carryOut {α : Type} (h : Host) (work : Operation α) : Except Interruption α × Host := work.run h

def noted (h : Host) (event : LogEvent) : Host := { h with log := event :: h.log }

def note (event : LogEvent) : Operation Unit := modify (·.noted event)

def failWith {α : Type} (error : HostError) : Operation α := throw (.failed error)

def unwind {α : Type} (payload : Lua.PanicPayload) : Operation α := throw (.unwound payload)

def guarded {α : Type} (work : Operation α) : Operation α :=
  tryCatch work fun
    | .unwound payload => do
      note (.panicCaptured payload.report)
      failWith (.panic payload.report)
    | .failed error => failWith error

def current : Operation Lua.Interpreter := do
  match (← get).interpreter with
  | some i => return i
  | none => failWith (.initialization "Lua instance is not initialized")

/-- The host with an interpreter as it is after some work. What scripts wrote meanwhile goes to the log. -/
def keeping (h : Host) (i : Lua.Interpreter) : Host :=
  { h with interpreter := some i.takeEvents.2, log := i.takeEvents.1.reverse ++ h.log }

def keep (i : Lua.Interpreter) : Operation Unit := modify (·.keeping i)

/-- Lets the interpreter work. A panic that it comes to goes on here. -/
def enter {α : Type} (work : Lua.Interpreter → Lua.Answer α × Lua.Interpreter) :
    Operation (Except Lua.ScriptError α) := do
  let (answer, i) := work (← current)
  keep i
  match answer with
  | .ok a => return .ok a
  | .error e => return .error e
  | .panic payload => unwind payload

def escalate {α : Type} (e : Lua.ScriptError) : Operation α := do
  note (.fatalError e.message)
  failWith (.fatal e.message)

def complaint (h : Host) (phase : Phase) (display : String) (e : Lua.ScriptError) : Diagnostic :=
  { message := "Lua runtime error " ++ phase.word ++ " \"" ++ display ++ "\": " ++ e.message
    tag := h.config.errorTag }

def reporting (h : Host) (report : Diagnostic) : Host :=
  { h with log := h.sink.event report :: h.log, reports := h.sink.kept report ++ h.reports }

def report (phase : Phase) (display : String) (e : Lua.ScriptError) : Operation Unit :=
  modify fun h => h.reporting (h.complaint phase display e)

def withStack (h : Host) (stack : List Lua.HostValue) : Host := { h with stack }

def fresh (h : Host) : Lua.Interpreter :=
  { world := { Lua.World.ofLibraries h.config.libraries with files := h.directory, clock := h.clock } }

def closed (h : Host) : Host := { h with interpreter := none, stack := [] }

def installed (h : Host) (i : Lua.Interpreter) : Host :=
  { h with interpreter := some i, generation := h.generation + 1 }

/-- Closes the interpreter and goes on with what has come of making a new one, to which functions are given
then. -/
def createFrom (made : Lua.Answer Lua.Interpreter)
    (bind : Lua.Interpreter → Lua.Answer Nat × Lua.Interpreter) : Operation Unit := do
  let h ← get
  if h.interpreter.isSome then
    set h.closed
    note (.instanceClosed h.generation)
  match made with
  | .ok i =>
    modify (·.withStack [])
    match bind i with
    | (.ok bound, i) =>
      modify (·.installed i)
      note (.instanceInitialized (h.generation + 1) bound)
    | (.error e, _) =>
      if e.isFatal then escalate e else failWith (.initialization e.message)
    | (.panic payload, _) => unwind payload
  | .error e => failWith (.initialization e.message)
  | .panic payload => unwind payload

def createInstance : Operation Unit := do
  let h ← get
  createFrom (.ok h.fresh) h.registry.bindInto

def renew : Operation Unit := guarded createInstance

def start (h : Host) : Except Interruption Unit × Host :=
  match h.config.validate with
  | .error e => (.error (.failed (.config e)), h)
  | .ok () => h.carryOut renew

def released (h : Host) : List LogEvent :=
  if h.interpreter.isSome then [.instanceReleased h.generation] else []

def depth (h : Host) : Nat := h.stack.length

def push (v : Lua.HostValue) : Operation Unit := modify fun h => h.withStack (v :: h.stack)

/-- Puts an address on the stack; the address zero is nil. -/
def pushPointer (address : UInt64) : Operation Unit :=
  push (if address == 0 then .nil else .pointer address)

def pushString (text : String) (refuses : Lua.Refusal := fun _ => none) : Operation Unit := do
  let _ ← current
  match refuses text.toUTF8 with
  | some e => escalate e
  | none => push (.string text.toUTF8)

/-- The text of a string or a number. For that of a number an interpreter is needed that makes a string of it. -/
def textOf? (h : Host) (v : Lua.HostValue) (refuses : Lua.Refusal := fun _ => none) : Option String :=
  match v with
  | .int _ | .float _ =>
    if h.interpreter.isSome && (v.coerced?.bind refuses).isNone then v.text? else none
  | _ => v.text?

/-- The number that a value is or spells. For what a string spells an interpreter is needed. -/
def numberOf? (h : Host) (v : Lua.HostValue) : Option Float :=
  match v with
  | .string _ => if h.interpreter.isSome then v.number? else none
  | _ => v.number?

/-- Takes a text or a number from the stack as a text. Anything else stays. -/
def popString (refuses : Lua.Refusal := fun _ => none) : Operation String := do
  let h ← get
  match h.stack with
  | [] => failWith (.stackPrecondition "pop_string on an empty stack")
  | v :: rest =>
    match v with
    | .string _ | .int _ | .float _ =>
      set (h.withStack rest)
      match h.textOf? v refuses with
      | some text => return text
      | none => failWith (.stackPrecondition "top of the stack is not convertible to text")
    | _ =>
      failWith
        (.stackPrecondition s!"pop_string expected text on top of the stack, found {v.kindName}")

def pop : Operation Lua.HostValue := do
  match (← get).stack with
  | [] => failWith (.stackPrecondition "pop on an empty stack")
  | v :: rest =>
    modify (·.withStack rest)
    return v

/-- The value at a position of the stack, counted from the bottom or, if it is negative, from the top. -/
def at? (h : Host) (position : Int) : Option Lua.HostValue :=
  let index := if position < 0 then (h.depth : Int) + position + 1 else position
  if 1 ≤ index then h.stack.reverse[(index - 1).toNat]? else none

/-- The integer at a position of the stack. A number loses its fraction, and what is no number counts as
zero. -/
def peekInteger (h : Host) (position : Int) : Option Int64 :=
  (h.at? position).map fun v => ((h.numberOf? v).map Numeral.truncateToInt64).getD 0

def bindGlobal (name : String) (refuses : Lua.Refusal := fun _ => none) : Operation Unit := do
  let v ← pop
  match ← enter (·.assign name v refuses) with
  | .ok () => note (.globalBound name)
  | .error e => escalate e

def truncate (depth : Nat) : Operation Unit :=
  modify fun h => h.withStack (h.stack.drop (h.depth - depth))

def expectDepth (depth : Nat) : Operation Unit := do
  let found := (← get).depth
  if found != depth then
    unwind ⟨some s!"assertion \x60left == right\x60 failed\n  left: {found}\n right: {depth}"⟩

/-- Loads a chunk and puts its function on the stack, or reports why it cannot be loaded. -/
def load (source : Bytes) (display : String) : Operation Bool := do
  let base := (← get).depth
  let name := (← get).config.chunkName
  let (loaded, i) := (← current).load name (Source.Reader.drain { source })
  keep i
  match loaded with
  | .ok function =>
    push (.function function)
    expectDepth (base + 1)
    return true
  | .error e =>
    if e.isFatal then escalate e
    else
      report .parsing display e
      return false

def popChunk : Operation Nat := do
  let expected := "expected a compiled chunk on top of the stack, found "
  match (← get).stack with
  | .function function :: rest =>
    modify (·.withStack rest)
    return function
  | v :: _ => failWith (.stackPrecondition (expected ++ v.kindName))
  | [] => failWith (.stackPrecondition (expected ++ "nothing"))

/-- Takes a loaded chunk from the stack and calls it. A result that is wanted goes on the stack, which is nil
if the chunk gives none. An error of the chunk is reported. -/
def evaluate (wantResult : Bool) (display : String) : Operation Bool := do
  let function ← popChunk
  let base := (← get).depth
  let answer ← tryCatch (guarded (enter (·.call function))) fun interruption => do
    truncate base
    throw interruption
  match answer with
  | .ok results =>
    if wantResult then
      push (results.headD .nil)
      expectDepth (base + 1)
    return true
  | .error e =>
    truncate base
    if e.isFatal then escalate e
    else
      report .evaluating display e
      return false

def runChunk (wantResult : Bool) (source : Bytes) (display : String) : Operation Bool := do
  if ← load source display then evaluate wantResult display else return false

def runScript (script : String) : Operation Bool := runChunk false script.toUTF8 script

def runScriptFile (path : String) : Operation Bool := do
  match (← get).files path with
  | .ok script => runChunk false script (Text.decodeLossy script)
  | .error e =>
    match e with
    | .notFound | .permissionDenied => note (.scriptNotOpened path e.message)
    | .other _ => note (.scriptNotRead path e.message)
    return false

def prepared (h : Host) (expression : String) : String :=
  if h.config.prepareExpressions then Source.prepareExpression expression else expression

/-- Puts the result of an expression on the stack and says whether there is one. A function is no result. -/
def runExpression (expression : String) : Operation Bool := do
  let expression := (← get).prepared expression
  if ← runChunk true ("return " ++ expression).toUTF8 expression then
    match (← get).stack with
    | .function _ :: rest =>
      modify (·.withStack rest)
      failWith .functionResult
    | _ => return true
  else return false

def runExpressionBool (expression : String) : Operation Bool := do
  if ← runExpression expression then return (← pop).isTrue else return false

/-- The number that an expression gives; zero if it gives none. -/
def runExpressionFloat (expression : String) : Operation Float := do
  if ← runExpression expression then
    let v ← pop
    return ((← get).numberOf? v).getD 0.0
  else return 0.0

def runExpressionString (expression : String) (refuses : Lua.Refusal := fun _ => none) :
    Operation (Option String) := do
  if ← runExpression expression then
    let v ← pop
    match (← get).textOf? v refuses with
    | some text => return some text
    | none =>
      note (.notText expression v.kindName)
      return none
  else return none

/-- A global by its name, whatever the metatable of the globals says. -/
def global (name : String) : Operation Lua.HostValue := do
  let (arrival, i) := (← current).global name
  keep i
  match arrival with
  | .ok v => return v
  | .error payload => unwind payload

end Host
end ScriptHost
