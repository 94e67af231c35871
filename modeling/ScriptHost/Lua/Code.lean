import ScriptHost.Lua.Value
/-! Compiled functions: instructions on the registers of a call, with the lines and the names of operands that
error messages show. -/
namespace ScriptHost.Lua
open Text (Bytes)

/-- Where an instruction finds an operand: in a register, in the box of a register that other functions
capture, among the captured variables of the function, or in the text of the script. -/
inductive Source where
  | reg (r : Nat)
  | box (r : Nat)
  | upvalue (place : Nat)
  | const (c : Constant)
  deriving Inhabited

inductive OperandName where
  | local (name : Bytes)
  | upvalue (name : Bytes)
  | global (name : Bytes)
  | field (name : Bytes)
  | method (name : Bytes)
  | constant (text : Bytes)
  deriving Inhabited

def OperandName.parts : OperandName → String × Bytes
  | .local name => ("local", name)
  | .upvalue name => ("upvalue", name)
  | .global name => ("global", name)
  | .field name => ("field", name)
  | .method name => ("method", name)
  | .constant text => ("constant", text)

/-- Where a new closure finds a captured variable: in a box of the running call, or among its own captured
variables. -/
inductive CaptureSource where
  | box (r : Nat)
  | upvalue (place : Nat)
  deriving Inhabited

/-- One instruction. A count of `none` stands for all open values: the results of the call or the extra
arguments that came just before. -/
inductive Instr where
  | move (dst : Nat) (src : Source)
  | clear (dst count : Nat)
  | makeBox (r : Nat)
  | setBox (r : Nat) (src : Source)
  | setUpvalue (place : Nat) (src : Source)
  | index (dst : Nat) (object key : Source)
  | setIndex (object key value : Source)
  | lookup (dst : Nat) (object : Source) (name : Bytes)
  | arith (op : ArithOp) (dst : Nat) (a b : Source)
  | unary (op : UnaryOp) (dst : Nat) (a : Source)
  | concat (dst first count : Nat)
  | compare (op : CompareOp) (dst : Nat) (a b : Source) (negated : Bool)
  | jumpCompare (op : CompareOp) (a b : Source) (sense : Bool) (target : Nat)
  | jumpIf (src : Source) (sense : Bool) (target : Nat)
  | keepIf (dst : Nat) (src : Source) (sense : Bool) (target : Nat)
  | jump (target : Nat)
  | leave (target level : Nat)
  | call (base : Nat) (args results : Option Nat)
  | tailCall (base : Nat) (args : Option Nat)
  | ret (first : Nat) (count : Option Nat)
  | varargs (dst : Nat) (count : Option Nat)
  | closure (dst place : Nat) (captures : Array CaptureSource)
  | newTable (dst items keys : Nat)
  | append (table first count start : Nat) (open_ : Bool)
  | prepareNumeric (base target : Nat)
  | stepNumeric (base target : Nat)
  | prepareGeneric (base target : Nat)
  | callGeneric (base count : Nat)
  | stepGeneric (base target : Nat)
  | markToClose (r : Nat) (name : Bytes)
  | close (level : Nat)
  deriving Inhabited

structure Proto where
  /-- The name of the chunk that it was written in. -/
  source : Bytes
  lineDefined : Nat
  /-- The outermost function of a chunk. -/
  isMain : Bool
  params : Nat
  isVararg : Bool
  registers : Nat
  code : Array Instr
  lines : Array Nat
  /-- The names of the operands of each instruction, in their order. -/
  names : Array (List (Option OperandName))
  /-- The names of the captured variables. -/
  upvalues : Array Bytes
  children : Array Proto
  deriving Inhabited

end ScriptHost.Lua
