import ScriptHost.Lua.HostValue
import ScriptHost.Lua.Library.Description
/-! What functions of the host do when scripts call them. Their errors and panics travel through scripts as
values. -/
namespace ScriptHost.Lua
open Text (Bytes)

def explainValue : Value := .function Builtin.explain.place

/-- An error as the host sees it, once no script has caught it. -/
def World.arrivedError (w : World) (raised : Raised) : Arrival ScriptError × World :=
  match raised.value with
  | .failure place =>
    match w.failures[place]? with
    | some (.error e) => (.ok e, w)
    | some (.panic (some payload)) =>
      (.error payload, { w with failures := putAt w.failures place (.panic none) })
    | _ => (.ok .spentPanic, w)
  | v =>
    let text := Text.decodeLossy (v.plainText w)
    (.ok (match raised.kind with
      | .memory => .memory text
      | .ordinary | .handling => .runtime text), w)

namespace Task

def failAs {α : Type} (e : ScriptError) : Task α := do
  let traceback := Text.decodeLossy ((← surroundings).traceback ())
  let place ← create (·.addFailure (.error (.callback traceback e)))
  fail (.value (.failure place))

def panic {α : Type} (payload : PanicPayload) : Task α := do
  let place ← create (·.addFailure (.panic (some payload)))
  fail (.value (.failure place))

/-- Raises a panic of a function of the host for the first time. -/
def raisePanic {α : Type} (payload : PanicPayload) : Task α := do
  change fun w => { w with panics := w.panics + 1 }
  panic payload

/-- Goes on with what has reached the host. A panic is carried on as a new one. -/
def arrive {α : Type} : Arrival α → Task α
  | .ok a => pure a
  | .error payload => panic payload

end Task

namespace HostFunction

def callForFirst (f : HostValue) : Task HostValue := do
  match f with
  | .function place =>
    match ← Task.callGuarded (.function place) [] (.function explainValue) with
    | .ok results => Task.arrive (← Task.create (·.receive (results.headD .nil)))
    | .error raised => Task.failAs (← Task.arrive (← Task.create (·.arrivedError raised)))
  | _ => Task.failAs (.runtime "call expects a function")

def badArgument (function found : String) : ScriptError :=
  .runtime s!"bad argument #1 to '{function}' (string expected, got {found})"

/-- The first argument as a text. Of a number it is the text of the string that scripts make of it. -/
def stringArgument (function : String) (args : List HostValue) : Except ScriptError String :=
  let first := args.headD .nil
  match first with
  | .string _ | .int _ | .float _ =>
    match first.coerced? with
    | some s => .ok (Text.decodeLossy s)
    | none => .error (badArgument function first.kindName)
  | _ => .error (badArgument function first.kindName)

def answer (f : HostFunction) (args : List HostValue) : Task HostValue := do
  let first := args.headD .nil
  match f with
  | .constant c =>
    return match c with
      | .nil => .nil
      | .bool b => .bool b
      | .number (.int i) => .int i
      | .number (.float x) => .float x
      | .string s => .string s
  | .pointer address => return .pointer address
  | .first => return first
  | .count => return .int (Int64.ofNat args.length)
  | .kindOfFirst => return .string first.kindName.toUTF8
  | .list =>
    let values ← Task.create (·.giveAll args)
    return .table (← Task.create (·.addTable (({} : Table).setList 0 values)))
  | .callFirst => callForFirst first
  | .raise e => Task.failAs e
  | .raiseFirst =>
    match first with
    | .string s => Task.failAs (.runtime (Text.decodeLossy s))
    | _ => Task.failAs (.runtime ("not text: " ++ first.kindName))
  | .panic payload => Task.raisePanic payload
  | .panicCounting => Task.raisePanic ⟨some s!"bad opcode {args.length}"⟩
  | .clock part => return .int (Int64.ofNat (← Task.read (·.clock.part part)))
  | .trace =>
    match stringArgument "Trace" args with
    | .ok text =>
      Task.change fun w => { w with events := .traced text :: w.events }
      return .bool true
    | .error e => Task.failAs e

def run (f : HostFunction) (args : List Value) : Task (List Value) := do
  let args ← Task.arrive (← Task.create (·.receiveAll args))
  let result ← f.answer args
  return [← Task.create (·.give result)]

end HostFunction

def Failure.describe (args : List Value) : Task (List Value) := do
  match Argument.get args 1 with
  | .failure place =>
    match ← Task.read (·.failures[place]?) with
    | some (.error e) => return [.ofText e.message]
    | some (.panic (some payload)) => return [.ofText payload.shown]
    | _ => Task.failAs .spentPanic
  | _ => return [.nil]

/-- Adds a traceback to the text of an error. Failures of the host stay as they are. -/
def Raised.explain (args : List Value) : Task (List Value) := do
  match Argument.get args 1 with
  | .failure place => return [.failure place]
  | v =>
    let text := untilNul (← Task.describe v)
    let traceback := (← Task.surroundings).traceback ()
    return [.string (text ++ "\n".toUTF8 ++ traceback)]

end ScriptHost.Lua
