/-! Log levels and the events that the host writes to its log. -/
namespace ScriptHost

inductive LogLevel where
  | trace
  | debug
  | info
  | warn
  | error
  deriving DecidableEq, Repr

def LogLevel.all : List LogLevel := [.trace, .debug, .info, .warn, .error]

def LogLevel.directive : LogLevel → String
  | .trace => "trace"
  | .debug => "debug"
  | .info => "info"
  | .warn => "warn"
  | .error => "error"

def LogLevel.name : LogLevel → String
  | .trace => "Trace"
  | .debug => "Debug"
  | .info => "Info"
  | .warn => "Warn"
  | .error => "Error"

def LogLevel.ofName? (name : String) : Option LogLevel := LogLevel.all.find? fun l => l.name == name

/-- Which part of the system an event comes from: the host itself or a script. -/
inductive LogTarget where
  | host
  | script
  deriving DecidableEq, Repr

def LogTarget.name : LogTarget → String
  | .host => "lua"
  | .script => "script"

structure LogEvent where
  level : LogLevel
  target : LogTarget
  message : String
  fields : List (String × String) := []
  deriving DecidableEq, Repr

namespace LogEvent

def loggingInitialized (level : LogLevel) : LogEvent :=
  ⟨.debug, .host, "Logging initialized", [("level", level.directive)]⟩

def instanceClosed (generation : Nat) : LogEvent :=
  ⟨.debug, .host, "Closed Lua instance", [("generation", toString generation)]⟩

def instanceInitialized (generation natives : Nat) : LogEvent :=
  ⟨.info, .host, "Lua instance initialized",
    [("generation", toString generation), ("natives", toString natives)]⟩

def instanceReleased (generation : Nat) : LogEvent :=
  ⟨.debug, .host, "Released Lua instance", [("generation", toString generation)]⟩

def globalBound (name : String) : LogEvent := ⟨.trace, .host, "Bound global", [("name", name)]⟩

def panicCaptured (text : String) : LogEvent :=
  ⟨.error, .host, "Captured Lua panic: " ++ text, []⟩

def fatalError (text : String) : LogEvent := ⟨.error, .host, "Fatal Lua error: " ++ text, []⟩

def scriptNotOpened (path text : String) : LogEvent :=
  ⟨.warn, .host, "Couldn't open Lua script \"" ++ path ++ "\": " ++ text, []⟩

def scriptNotRead (path text : String) : LogEvent :=
  ⟨.warn, .host, "Error reading Lua script \"" ++ path ++ "\": " ++ text, []⟩

def notText (expression typeName : String) : LogEvent :=
  ⟨.warn, .host,
    "Expression \"" ++ expression ++ "\" returned a " ++ typeName ++ ", expected text", []⟩

def traced (text : String) : LogEvent := ⟨.trace, .script, text, []⟩

end LogEvent
end ScriptHost
