import ScriptHost.Host
/-! Requests to a host, one after the other. -/
namespace ScriptHost

inductive Run where
  | script (text : String)
  | file (path : String)
  /-- The value of an expression, to be left on the stack. -/
  | expression (text : String)
  /-- Whether an expression is true. -/
  | truth (expression : String)
  /-- The number that an expression gives. -/
  | number (expression : String)
  /-- The text that an expression gives. -/
  | text (expression : String)
  deriving DecidableEq, Repr

inductive Request where
  | renew
  | pushInteger (i : Int64)
  | pushNumber (x : Float)
  | pushBoolean (b : Bool)
  | pushPointer (address : UInt64)
  | pushString (text : String)
  | popString
  | peekInteger (position : Int)
  | bindGlobal (name : String)
  | run (chunk : Run)
  deriving DecidableEq, Repr

inductive Reply where
  | done
  | truth (b : Bool)
  | number (x : Float)
  | text (text : String)
  | textOrNone (text : Option String)
  | integerOrNone (i : Option Int64)
  deriving DecidableEq, Repr

namespace Host

def runFor (chunk : Run) (refuses : Lua.Refusal := fun _ => none) : Operation Reply :=
  match chunk with
  | .script text => return .truth (← runScript text)
  | .file path => return .truth (← runScriptFile path)
  | .expression text => return .truth (← runExpression text)
  | .truth expression => return .truth (← runExpressionBool expression)
  | .number expression => return .number (← runExpressionFloat expression)
  | .text expression => return .textOrNone (← runExpressionString expression refuses)

/-- Does what is asked. The interpreter makes the strings that the host needs, unless it refuses. -/
def perform (request : Request) (refuses : Lua.Refusal := fun _ => none) : Operation Reply :=
  match request with
  | .renew => do renew; return .done
  | .pushInteger i => do push (.int i); return .done
  | .pushNumber x => do push (.float x); return .done
  | .pushBoolean b => do push (.bool b); return .done
  | .pushPointer address => do pushPointer address; return .done
  | .pushString text => do pushString text refuses; return .done
  | .popString => return .text (← popString refuses)
  | .peekInteger position => return .integerOrNone ((← get).peekInteger position)
  | .bindGlobal name => do bindGlobal name refuses; return .done
  | .run chunk => runFor chunk refuses

def answer (h : Host) (request : Request) (refuses : Lua.Refusal := fun _ => none) :
    Except Interruption Reply × Host :=
  h.carryOut (perform request refuses)

/-- The host after some requests. Whoever asks goes on after errors, and after panics too. -/
def after (h : Host) : List Request → Host
  | [] => h
  | request :: rest => (h.answer request).2.after rest

end Host

/-- A host that requests lead to after a start that went well. Its sink and what it has from outside can change
between two requests. -/
inductive Reachable : Host → Prop where
  | started (config : Config) (registry : Registry) (files : FileSource) (directory : FileTree)
      (clock : Lua.ClockReading) {h : Host} :
      Host.start { config, registry, files, directory, clock } = (.ok (), h) → Reachable h
  | answered {h : Host} (request : Request) (refuses : Lua.Refusal := fun _ => none) :
    Reachable h → Reachable (h.answer request refuses).2
  | redirected {h : Host} (sink : DiagnosticSink) (files : FileSource) (directory : FileTree)
      (clock : Lua.ClockReading) : Reachable h → Reachable { h with sink, files, directory, clock }

end ScriptHost
