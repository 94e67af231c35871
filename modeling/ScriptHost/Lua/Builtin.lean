/-! The functions of the standard libraries, by name. -/
namespace ScriptHost.Lua

inductive BaseFunction where
  | assert | collectgarbage | dofile | error | getmetatable | ipairs | load | loadfile | next | pairs
  | pcall | print | rawequal | rawget | rawlen | rawset | select | setmetatable | tonumber | tostring
  | type | warn | xpcall
  /-- The step of a loop over a list. -/
  | ipairsStep
  deriving DecidableEq, Repr, Inhabited

inductive MathFunction where
  | abs | acos | asin | atan | ceil | cos | cosh | deg | exp | floor | fmod | frexp | ldexp | log | log10
  | max | min | modf | pow | rad | random | randomseed | sin | sinh | sqrt | tan | tanh | tointeger
  | type | ult
  deriving DecidableEq, Repr, Inhabited

inductive StringFunction where
  | byte | char | dump | find | format | gmatch | gsub | len | lower | matchFirst | pack | packsize | rep
  | reverse | sub | unpack | upper
  | add | subtract | multiply | modulo | power | divide | floorDivide | negate
  deriving DecidableEq, Repr, Inhabited

inductive TableFunction where
  | concat | insert | move | pack | remove | sort | unpack
  deriving DecidableEq, Repr, Inhabited

inductive Utf8Function where
  | char | codepoint | codes | len | offset
  /-- The step of a loop over code points, for strict and for lax decoding. -/
  | strictStep
  | laxStep
  deriving DecidableEq, Repr, Inhabited

inductive Builtin where
  | base (f : BaseFunction)
  | math (f : MathFunction)
  | string (f : StringFunction)
  | table (f : TableFunction)
  | utf8 (f : Utf8Function)
  /-- The text of an error or a panic of the host. -/
  | failureText
  /-- What turns an uncaught error into one with a traceback. -/
  | explain
  deriving DecidableEq, Repr, Inhabited

namespace Builtin

def baseFunctions : List (String × BaseFunction) :=
  [("assert", .assert), ("collectgarbage", .collectgarbage), ("dofile", .dofile), ("error", .error),
    ("getmetatable", .getmetatable), ("ipairs", .ipairs), ("load", .load), ("loadfile", .loadfile),
    ("next", .next), ("pairs", .pairs), ("pcall", .pcall), ("print", .print), ("rawequal", .rawequal),
    ("rawget", .rawget), ("rawlen", .rawlen), ("rawset", .rawset), ("select", .select),
    ("setmetatable", .setmetatable), ("tonumber", .tonumber), ("tostring", .tostring), ("type", .type),
    ("warn", .warn), ("xpcall", .xpcall)]

def mathFunctions : List (String × MathFunction) :=
  [("abs", .abs), ("acos", .acos), ("asin", .asin), ("atan", .atan), ("ceil", .ceil), ("cos", .cos),
    ("cosh", .cosh), ("deg", .deg), ("exp", .exp), ("floor", .floor), ("fmod", .fmod),
    ("frexp", .frexp), ("ldexp", .ldexp), ("log", .log), ("log10", .log10), ("max", .max),
    ("min", .min), ("modf", .modf), ("pow", .pow), ("rad", .rad), ("random", .random),
    ("randomseed", .randomseed), ("sin", .sin), ("sinh", .sinh), ("sqrt", .sqrt), ("tan", .tan),
    ("tanh", .tanh), ("tointeger", .tointeger), ("type", .type), ("ult", .ult)]

def stringFunctions : List (String × StringFunction) :=
  [("byte", .byte), ("char", .char), ("dump", .dump), ("find", .find), ("format", .format),
    ("gmatch", .gmatch), ("gsub", .gsub), ("len", .len), ("lower", .lower), ("match", .matchFirst),
    ("pack", .pack), ("packsize", .packsize), ("rep", .rep), ("reverse", .reverse), ("sub", .sub),
    ("unpack", .unpack), ("upper", .upper)]

def stringEvents : List (String × StringFunction) :=
  [("__add", .add), ("__sub", .subtract), ("__mul", .multiply), ("__mod", .modulo), ("__pow", .power),
    ("__div", .divide), ("__idiv", .floorDivide), ("__unm", .negate)]

def tableFunctions : List (String × TableFunction) :=
  [("concat", .concat), ("insert", .insert), ("move", .move), ("pack", .pack), ("remove", .remove),
    ("sort", .sort), ("unpack", .unpack)]

def utf8Functions : List (String × Utf8Function) :=
  [("char", .char), ("codepoint", .codepoint), ("codes", .codes), ("len", .len), ("offset", .offset)]

/-- All functions, in the order of their places in the memory of a new interpreter. -/
def all : Array Builtin :=
  (baseFunctions.map fun e => base e.2).toArray ++ (mathFunctions.map fun e => math e.2).toArray ++
    (stringFunctions.map fun e => string e.2).toArray ++ (stringEvents.map fun e => string e.2).toArray ++
    (tableFunctions.map fun e => table e.2).toArray ++ (utf8Functions.map fun e => utf8 e.2).toArray ++
    #[base .ipairsStep, utf8 .strictStep, utf8 .laxStep, failureText, explain]

/-- The place of a function in the memory of every interpreter. -/
def place (f : Builtin) : Nat := (all.idxOf? f).getD 0

end Builtin
end ScriptHost.Lua
