import ScriptHost.Lua.Interpreter
import ScriptHost.Text.Quoted
/-! Functions of the host that every new interpreter gets. Of several functions with one name a script sees
the one that was registered first. -/
namespace ScriptHost

structure NativeFunction where
  name : String
  function : Lua.HostFunction

namespace NativeFunction

def note (f : NativeFunction) : String :=
  "NativeFunction \x7b name: " ++ Text.quoted f.name ++ ", .. \x7d"

/-- Calls a function without arguments and without a script in between. -/
def callAlone (f : NativeFunction) (i : Lua.Interpreter) : Lua.Answer Lua.HostValue :=
  match (i.run 0 (f.function.run [])).1 with
  | .ok results => .ok (results.headD .nil)
  | .error (.callback _ cause) => .error cause
  | .error e => .error e
  | .panic payload => .panic payload

end NativeFunction

/-- Registered functions, the latest first. -/
structure Registry where
  entries : List NativeFunction := []

namespace Registry

def register (r : Registry) (name : String) (function : Lua.HostFunction) : Registry :=
  ⟨⟨name, function⟩ :: r.entries⟩

def ofList (functions : List (String × Lua.HostFunction)) : Registry :=
  functions.foldl (fun r (name, f) => r.register name f) {}

def builtin : Registry :=
  .ofList [("MonthOfYear", .clock .month), ("DayOfMonth", .clock .dayOfMonth), ("Hour", .clock .hour),
    ("Minute", .clock .minute), ("Second", .clock .second), ("Year", .clock .year),
    ("Weekday", .clock .weekday), ("DayOfYear", .clock .dayOfYear), ("Trace", .trace)]

def names (r : Registry) : List String := r.entries.map (·.name)

def size (r : Registry) : Nat := r.entries.length

def isEmpty (r : Registry) : Bool := r.entries.isEmpty

def contains (r : Registry) (name : String) : Bool := r.entries.any (·.name == name)

/-- Makes a global of every function, the latest first, and counts them. What goes wrong ends it. -/
def bindAll : List NativeFunction → Nat → Lua.Interpreter → Lua.Answer Nat × Lua.Interpreter
  | [], bound, i => (.ok bound, i)
  | f :: rest, bound, i =>
    let (place, i) := i.addFunction f.function
    match i.setGlobal f.name (.function place) with
    | (.ok (), i) => bindAll rest (bound + 1) i
    | (.error e, i) => (.error e, i)
    | (.panic payload, i) => (.panic payload, i)

def bindInto (r : Registry) (i : Lua.Interpreter) : Lua.Answer Nat × Lua.Interpreter :=
  bindAll r.entries 0 i

end Registry
end ScriptHost
