import ScriptHost.Lua.Number
/-! The syntax of scripts after names are resolved: local variables are numbered by their declarations in a
function, and variables of enclosing functions by their places among the captured ones. -/
namespace ScriptHost.Lua
open Text (Bytes)

inductive UnaryOp where
  | negate | complement | not | length
  deriving DecidableEq, Repr

inductive ArithOp where
  | add | sub | mul | mod | pow | div | floorDiv | bitAnd | bitOr | bitXor | shiftLeft | shiftRight
  deriving DecidableEq, Repr

/-- Comparisons. The others are these with the operands exchanged, or negated. -/
inductive CompareOp where
  | equal | less | lessEqual
  deriving DecidableEq, Repr

inductive BinaryOp where
  | arith (op : ArithOp)
  | concat
  | compare (op : CompareOp) (exchanged negated : Bool)
  deriving DecidableEq, Repr

inductive Constant where
  | nil
  | bool (b : Bool)
  | number (n : Number)
  | string (s : Bytes)

def Constant.isTrue : Constant → Bool
  | .nil | .bool false => false
  | _ => true

def environmentName : Bytes := "_ENV".toUTF8

/-- An expression. Lines say where errors of its operation are reported. -/
inductive Expr where
  | const (c : Constant)
  | vararg
  /-- A function, by its place among the functions written inside this one. -/
  | function (place : Nat)
  | local (decl : Nat)
  | upvalue (place : Nat)
  | index (object key : Expr) (line : Nat)
  | call (fn : Expr) (args : List Expr) (line : Nat)
  | method (object : Expr) (name : Bytes) (lookupLine : Nat) (args : List Expr) (line : Nat)
  /-- A table with its fields in order; the items of the list have no key. -/
  | table (fields : List (Option Expr × Expr × Nat)) (line : Nat)
  | unary (op : UnaryOp) (operand : Expr) (line : Nat)
  | binary (op : BinaryOp) (left right : Expr) (line : Nat)
  | and (left right : Expr)
  | or (left right : Expr)
  /-- An expression between parentheses: one value, and no variable to assign to. -/
  | single (e : Expr)
  deriving Inhabited

/-- A statement. Blocks carry the line on which they end. -/
inductive Stat where
  /-- New variables; of those at most one is closed when it goes out of scope. -/
  | local (decls : List Nat) (values : List Expr) (toClose : Option Nat) (line : Nat)
  | localFunction (decl place : Nat) (line : Nat)
  | assign (targets values : List Expr) (line : Nat)
  | call (e : Expr)
  | block (body : List Stat) (last : Nat)
  | while (cond : Expr) (body : List Stat) (last breakLabel : Nat)
  | repeat (body : List Stat) (cond : Expr) (last breakLabel : Nat)
  | cond (clauses : List (Expr × List Stat × Nat))
  | numeric (decl : Nat) (start limit : Expr) (step : Option Expr) (body : List Stat)
      (last doLine line breakLabel : Nat)
  | generic (decls : List Nat) (values : List Expr) (body : List Stat)
      (last doLine line breakLabel : Nat)
  | goto (jump : Nat) (line : Nat)
  | label (label : Nat)
  | return (values : List Expr) (mayReplace : Bool) (line : Nat)
  deriving Inhabited

/-- Where a function finds a variable that it captures: among the declarations of the function around it, or
among the variables captured there. -/
inductive Capture where
  | local (decl : Nat)
  | upvalue (place : Nat)
  deriving DecidableEq, Repr

end ScriptHost.Lua
